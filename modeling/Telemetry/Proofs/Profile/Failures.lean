import Mathlib.Data.List.Forall2
import Telemetry.Proofs.Profile.Windows

/-!
# Operations that fail leave no trace

`Profiler.record` and `Profiler.report` are told what was read, and if they fail there is nothing they
could have changed. Here they are taken apart into the steps they are made of (`Steps`): the source
gives its readings one after the other, a profile is folded into a tree of its own, and whatever a
step has done stays done when a later one fails.

That nothing has to be undone depends on the order of the steps. All that can fail comes before the
first change, apart from the reading, which is used up (`after_eq`). So the calls that fail can be
left out of a run together with what they read, and nobody will notice (`run_withoutFailures`).
-/

namespace Telemetry

/-! ## Apart from ids and times -/

section Undated

variable {α β : Type}

/-- A record without the id and the time of what was observed. -/
def MetricRecord.undated (r : MetricRecord α) : MetricRecord α :=
  { r with measurement := r.measurement.map fun m => { m with id := "", timestamp := 0 } }

/-- A metric without the id and the time of what was observed. -/
def Metric.undated (m : Metric α β) : Metric α β :=
  { m with measurement := m.measurement.map fun o => { o with id := ⟨""⟩, timestamp := ⟨0⟩ } }

theorem Metric.undated_toRecord (picture : β → Option (BreakdownRecord α)) (m : Metric α β) :
    (m.toRecord picture).undated = m.undated.toRecord picture := by
  cases hm : m.measurement <;> simp [MetricRecord.undated, Metric.undated, Metric.toRecord, hm]

theorem Metric.isSome_measurement_undated (m : Metric α β) :
    m.undated.measurement.isSome = m.measurement.isSome :=
  Option.isSome_map

/-- What is observed does not depend on the time. -/
theorem Metric.undated_observe [Quantity α] {m m' : Metric α β} (h : m'.undated = m.undated)
    (mint mint' : Mint) (moment moment' : Moment) (trigger : Trigger) (reading : α)
    (duration : UInt64) (breakdown : Option β) :
    (m'.observe mint' moment' trigger reading duration breakdown).2.1.undated
      = (m.observe mint moment trigger reading duration breakdown).2.1.undated := by
  obtain ⟨id, kind, category, name, unit, measurement, last⟩ := m
  obtain ⟨id', kind', category', name', unit', measurement', last'⟩ := m'
  simp only [undated, Metric.mk.injEq] at h
  obtain ⟨rfl, rfl, rfl, rfl, rfl, hmeasurement, rfl⟩ := h
  cases kind' with
  | counter =>
    cases last' with
    | none => simp [observe, observed?, undated, hmeasurement]
    | some before => simp [observe, observed?, undated]
  | _ => simp [observe, observed?, undated]

end Undated

end Telemetry

namespace Telemetry.Profiler

open CallGraph

variable {α : Type}

/-! ## What comes of a profile -/

section Outcomes

variable [Quantity α]

/-- A reading gives a call graph if it is a profile, and one that can be folded. -/
theorem isOk_callGraph_iff (p : Profiler α) (reading : Except ProfileError Profile) :
    (p.callGraph reading).isOk ↔
      ∃ profile, reading = .ok profile ∧
        Foldable p.settings.valueKind p.settings.countKind profile := by
  constructor
  · intro hok
    cases reading with
    | error e => cases hok
    | ok profile =>
      refine ⟨profile, rfl, ?_⟩
      cases hgraph : p.callGraph (.ok profile) with
      | error e =>
        rw [hgraph] at hok
        cases hok
      | ok t =>
        obtain ⟨c, hc, hcomplete, -⟩ := ofProfile_eq_ok_iff.mp hgraph
        exact ⟨c, hc, hcomplete⟩
  · rintro ⟨profile, rfl, c, hc, hcomplete⟩
    have hgraph : p.callGraph (.ok profile) = .ok (grow Tree.root (c.hits profile.samples)) :=
      ofProfile_eq_ok_iff.mpr ⟨c, hc, hcomplete, rfl⟩
    rw [hgraph]
    rfl

/-- The caller is told that something was queued if the metric has a measurement. -/
theorem queueTree_fst (p : Profiler α) (o : Outlet) (moment : Moment) (windows : Nat)
    (t : Tree α) :
    (p.queueTree o moment windows t).1
      = (p.queueTree o moment windows t).2.1.metric.measurement.isSome :=
  Outlet.emit_fst _ moment.now _

theorem config_queueTree (p : Profiler α) (o : Outlet) (moment : Moment) (windows : Nat)
    (t : Tree α) : (p.queueTree o moment windows t).2.2.config = o.config :=
  Outlet.config_emit _ moment.now _

/-- At most one message is queued, behind those that wait. -/
theorem pending_queueTree (p : Profiler α) (o : Outlet) (moment : Moment) (windows : Nat)
    (t : Tree α) :
    (p.queueTree o moment windows t).2.2.delivery.pending
      = o.delivery.pending ++
        if (p.queueTree o moment windows t).1 then
          [Outlet.message moment.now
            ((p.queueTree o moment windows t).2.1.metric.toRecord fun tree => some tree.toRecord)]
        else [] :=
  Outlet.pending_emit _ moment.now _

/-- A report puts the record of the metric behind what is in the queue, or nothing. -/
theorem pending_report {p p' : Profiler α} {o o' : Outlet} {moment : Moment} {processors : Nat}
    {reading : Except ProfileError Profile} {queued : Bool}
    (h : p.report o moment processors reading = .ok (queued, p', o')) :
    o'.delivery.pending
      = o.delivery.pending ++
        if queued then
          [Outlet.message moment.now (p'.metric.toRecord fun tree => some tree.toRecord)]
        else [] := by
  cases hmode : p.settings.mode with
  | snapshot =>
    rw [report_of_snapshot hmode] at h
    cases hgraph : p.callGraph reading with
    | error e =>
      rw [hgraph] at h
      cases h
    | ok t =>
      rw [hgraph] at h
      cases h
      exact pending_queueTree p o moment 1 _
  | windowed interval duration =>
    by_cases hzero : p.windows = 0
    · rw [report_of_windows_eq_zero hmode hzero] at h
      cases h
      exact (List.append_nil _).symm
    · rw [report_of_windows_ne_zero hmode hzero] at h
      cases h
      exact pending_queueTree _ o moment _ _

end Outcomes

/-- A profiler with all that it works on. -/
structure Station (α : Type) where
  profiler : Profiler α
  outlet : Outlet
  /-- what the source is going to give, one reading after the other -/
  source : List (Except ProfileError Profile)

/-- Steps that are taken until one of them fails. What was done by then stays done. -/
abbrev Steps (α β : Type) : Type := ExceptT ProfileError (StateM (Station α)) β

namespace Station

/-- A source that gives no more readings fails. -/
def reading (s : Station α) : Except ProfileError Profile :=
  s.source.head?.getD (.error (.sourceFailed "nothing left to read"))

/-! ## One step after the other -/

section Performing

variable {β γ : Type}

/-- Steps are taken at a station. Returns what they come to, and the station then. -/
def perform (steps : Steps α β) (s : Station α) : Except ProfileError β × Station α :=
  (steps.run.run s).run

@[simp] theorem perform_pure (b : β) (s : Station α) : perform (pure b) s = (.ok b, s) := rfl

@[simp] theorem perform_get (s : Station α) : perform get s = (.ok s, s) := rfl

@[simp] theorem perform_set (t s : Station α) : perform (set t) s = (.ok (), t) := rfl

@[simp] theorem perform_modify (f : Station α → Station α) (s : Station α) :
    perform (modify f) s = (.ok (), f s) := rfl

@[simp] theorem perform_ofExcept (a : Except ProfileError β) (s : Station α) :
    perform (MonadExcept.ofExcept a) s = (a, s) := by
  cases a <;> rfl

/-- A step that fails ends the call where it stands, and leaves what was done so far. -/
@[simp] theorem perform_bind (steps : Steps α β) (rest : β → Steps α γ) (s : Station α) :
    perform (steps >>= rest) s
      = match perform steps s with
        | (.ok b, s') => perform (rest b) s'
        | (.error e, s') => (.error e, s') := by
  simp only [perform, ExceptT.run_bind, StateT.run_bind]
  rcases h : (steps.run.run s) with ⟨a, s'⟩
  cases a <;> rfl

end Performing

section Operations

variable [Quantity α]

/-! ## The operations, step by step -/

/-- Read the source. -/
def read : Steps α Profile := do
  let s ← get
  set { s with source := s.source.drop 1 }
  MonadExcept.ofExcept s.reading

/-- Read the source and fold what it gives into a new tree. -/
def readGraph : Steps α (Tree α) := do
  let profile ← read
  let settings := (← get).profiler.settings
  let (folded, scratch) := fold profile settings.valueKind settings.countKind Tree.root
  let _ ← MonadExcept.ofExcept folded
  return scratch

/-- Record a window. -/
def record : Steps α Bool := do
  let window ← readGraph
  modify fun s =>
    { s with profiler := { s.profiler with pending := s.profiler.pending.merge window } }
  modify fun s => { s with profiler := { s.profiler with windows := s.profiler.windows + 1 } }
  return false

/-- Take the windows that are pending. -/
def takeWindows : Steps α (Tree α × UInt32) := do
  let s ← get
  set { s with profiler := { s.profiler with pending := Tree.root, windows := 0 } }
  return (s.profiler.pending, s.profiler.windows)

/-- Finish a tree and queue it. -/
def queue (moment : Moment) (processors windows : Nat) (t : Tree α) : Steps α Bool := do
  let s ← get
  let finished := finish s.profiler.settings s.outlet.config.profileAgent processors windows t
  let (queued, profiler, outlet) := s.profiler.queueTree s.outlet moment windows finished
  set { s with profiler, outlet }
  return queued

/-- Make a report. Returns whether something was queued. -/
def report (moment : Moment) (processors : Nat) : Steps α Bool := do
  match (← get).profiler.settings.mode with
  | .snapshot =>
    let t ← readGraph
    queue moment processors 1 t
  | .windowed _ _ =>
    let (t, windows) ← takeWindows
    if windows = 0 then return false
    queue moment processors windows.toNat t

/-- Something that happens at a station. -/
inductive Call where
  | record
  | report (moment : Moment) (processors : Nat)
  /-- others who share the outlet are at work -/
  | meanwhile (mint : Mint → Mint) (delivery : Delivery → Delivery)

/-- The steps of a call. -/
def Call.steps : Call → Steps α Bool
  | .record => Station.record
  | .report moment processors => Station.report moment processors
  | .meanwhile mint delivery => do
    modify fun s =>
      { s with outlet := { s.outlet with mint := mint s.outlet.mint
                                         delivery := delivery s.outlet.delivery } }
    return false

/-- A call is made. Returns what it comes to, and the station then. -/
def after (s : Station α) (call : Call) : Except ProfileError Bool × Station α :=
  perform call.steps s

/-! ## What the steps come to -/

/-- How many readings a call makes. -/
def reads (s : Station α) : Call → Nat
  | .record => 1
  | .report _ _ =>
    match s.profiler.settings.mode with
    | .snapshot => 1
    | .windowed _ _ => 0
  | .meanwhile _ _ => 0

/-- A call as an operation that is told what is read, and is over if it fails. -/
def told (s : Station α) : Call → Except ProfileError (Bool × Station α)
  | .record => (s.profiler.record s.reading).map fun profiler => (false, { s with profiler })
  | .report moment processors =>
    (s.profiler.report s.outlet moment processors s.reading).map
      fun (queued, profiler, outlet) => (queued, { s with profiler, outlet })
  | .meanwhile mint delivery =>
    .ok (false,
      { s with outlet := { s.outlet with mint := mint s.outlet.mint
                                         delivery := delivery s.outlet.delivery } })

omit [Quantity α] in
/-- Every reading takes one profile off the source, whether it can be read or not. -/
theorem perform_read (s : Station α) :
    perform read s = (s.reading, { s with source := s.source.drop 1 }) := by
  simp [read]

theorem perform_readGraph (s : Station α) :
    perform readGraph s
      = (s.profiler.callGraph s.reading, { s with source := s.source.drop 1 }) := by
  simp only [readGraph, perform_bind, perform_read, callGraph]
  cases s.reading with
  | error e => rfl
  | ok profile =>
    simp only [perform_get, perform_ofExcept, Except.bind, ofProfile]
    -- the scratch tree goes nowhere if a sample cannot be folded
    rcases fold profile s.profiler.settings.valueKind s.profiler.settings.countKind Tree.root with
      ⟨folded, scratch⟩
    cases folded <;> rfl

theorem perform_queue (moment : Moment) (processors windows : Nat) (t : Tree α) (s : Station α) :
    perform (queue moment processors windows t) s
      = let (queued, profiler, outlet) := s.profiler.queueTree s.outlet moment windows
          (finish s.profiler.settings s.outlet.config.profileAgent processors windows t)
        (.ok queued, { s with profiler, outlet }) := rfl

theorem perform_takeWindows (s : Station α) :
    perform takeWindows s
      = (.ok (s.profiler.pending, s.profiler.windows),
          { s with profiler := { s.profiler with pending := Tree.root, windows := 0 } }) := rfl

/-- What a call does is what the operation does that is told what was read, apart from the reading
itself. If it fails, nothing else has happened. -/
theorem after_eq (s : Station α) (call : Call) :
    s.after call
      = match s.told call with
        | .ok (queued, s') => (.ok queued, { s' with source := s.source.drop (s.reads call) })
        | .error e => (.error e, { s with source := s.source.drop (s.reads call) }) := by
  cases call with
  | record =>
    simp only [after, Call.steps, record, perform_bind, perform_readGraph, told]
    cases hgraph : s.profiler.callGraph s.reading with
    | error e =>
      rw [record_eq_error hgraph]
      rfl
    | ok window =>
      rw [record_eq_ok hgraph]
      rfl
  | report moment processors =>
    simp only [after, Call.steps, report, perform_bind, perform_get, told, reads]
    cases hmode : s.profiler.settings.mode with
    | snapshot =>
      rw [report_of_snapshot hmode]
      simp only [perform_bind, perform_readGraph]
      cases s.profiler.callGraph s.reading with
      | error e => rfl
      | ok t =>
        simp only [perform_queue]
        rfl
    | windowed interval duration =>
      simp only [perform_bind, perform_takeWindows]
      by_cases hzero : s.profiler.windows = 0
      · rw [report_of_windows_eq_zero hmode hzero, if_pos hzero]
        rfl
      · rw [report_of_windows_ne_zero hmode hzero, if_neg hzero]
        simp only [perform_queue]
        rfl
  | meanwhile mint delivery => rfl

/-- A call that fails has done nothing but to read. -/
theorem after_of_error {s : Station α} {call : Call} {e : ProfileError}
    (h : (s.after call).1 = .error e) :
    (s.after call).2 = { s with source := s.source.drop (s.reads call) } := by
  rw [after_eq] at h ⊢
  cases htold : s.told call with
  | error e => rfl
  | ok outcome =>
    rw [htold] at h
    cases h

/-- A call fails only by what it reads. -/
theorem isOk_told (s : Station α) (call : Call) :
    (s.told call).isOk = (s.reads call == 0 || (s.profiler.callGraph s.reading).isOk) := by
  cases call with
  | record =>
    simp only [told, reads, Profiler.record]
    cases s.profiler.callGraph s.reading <;> rfl
  | report moment processors =>
    simp only [told, reads]
    cases hmode : s.profiler.settings.mode with
    | snapshot =>
      rw [report_of_snapshot hmode]
      cases s.profiler.callGraph s.reading <;> rfl
    | windowed interval duration =>
      by_cases hzero : s.profiler.windows = 0
      · rw [report_of_windows_eq_zero hmode hzero]
        rfl
      · rw [report_of_windows_ne_zero hmode hzero]
        rfl
  | meanwhile mint delivery => rfl

/-- A call fails if it reads something that has no call graph. There is no other reason. -/
theorem isOk_after_iff (s : Station α) (call : Call) :
    (s.after call).1.isOk ↔
      s.reads call = 0 ∨ ∃ profile, s.reading = .ok profile ∧
        Foldable s.profiler.settings.valueKind s.profiler.settings.countKind profile := by
  have hafter : (s.after call).1.isOk = (s.told call).isOk := by
    rw [after_eq]
    cases s.told call <;> rfl
  rw [hafter, isOk_told, Bool.or_eq_true, beq_iff_eq, isOk_callGraph_iff]

/-- It is only the next reading that matters, if one is made at all. -/
theorem told_congr {s : Station α} {call : Call} {source : List (Except ProfileError Profile)}
    (h : s.reads call ≠ 0 → { s with source }.reading = s.reading) :
    { s with source }.told call
      = (s.told call).map fun (queued, s') => (queued, { s' with source }) := by
  cases call with
  | record =>
    simp only [told, h Nat.one_ne_zero]
    cases s.profiler.record s.reading <;> rfl
  | report moment processors =>
    simp only [told]
    cases hmode : s.profiler.settings.mode with
    | snapshot =>
      have hreading : { s with source }.reading = s.reading := by
        apply h
        simp [reads, hmode]
      rw [hreading]
      cases s.profiler.report s.outlet moment processors s.reading <;> rfl
    | windowed interval duration =>
      by_cases hzero : s.profiler.windows = 0
      · simp only [report_of_windows_eq_zero hmode hzero]
        rfl
      · simp only [report_of_windows_ne_zero hmode hzero]
        rfl
  | meanwhile mint delivery => rfl

/-! ## Runs -/

/-- The record that a call queues, if it does. It is the record of the metric then. -/
def queued? (s : Station α) (call : Call) : Option (MetricRecord α) :=
  match (s.after call).1 with
  | .ok true =>
    some ((s.after call).2.profiler.metric.toRecord fun tree => some tree.toRecord)
  | .ok false | .error _ => none

/-- Calls are made one after the other, whether they fail or not. Returns the records queued. -/
def run (s : Station α) : List Call → List (MetricRecord α) × Station α
  | [] => ([], s)
  | call :: rest =>
    let (records, last) := (s.after call).2.run rest
    ((s.queued? call).toList ++ records, last)

/-- The calls of a run that do not fail, and what the source gives apart from the readings made by
those that fail. -/
def withoutFailures (s : Station α) : List Call → List Call × List (Except ProfileError Profile)
  | [] => ([], s.source)
  | call :: rest =>
    let (calls, source) := (s.after call).2.withoutFailures rest
    if (s.after call).1.isOk then (call :: calls, s.source.take (s.reads call) ++ source)
    else (calls, source)

omit [Quantity α] in
/-- No call reads twice. -/
theorem reads_le_one (s : Station α) (call : Call) : s.reads call ≤ 1 := by
  cases call with
  | record => exact Nat.le_refl 1
  | report moment processors =>
    rw [reads]
    split <;> decide
  | meanwhile mint delivery => exact Nat.zero_le 1

/-- What a call reads that does not fail is there. -/
theorem reads_le_length {s : Station α} {call : Call} (h : (s.after call).1.isOk) :
    s.reads call ≤ s.source.length := by
  rcases (isOk_after_iff s call).mp h with hzero | ⟨profile, hreading, -⟩
  · rw [hzero]
    exact Nat.zero_le _
  · refine Nat.le_trans (s.reads_le_one call) (List.length_pos_iff.mpr ?_)
    intro hnil
    simp [reading, hnil] at hreading

/-- A call that does not fail has to do with the readings that it makes, and no others. -/
theorem after_of_take {s : Station α} {call : Call} (h : (s.after call).1.isOk)
    (more : List (Except ProfileError Profile)) :
    { s with source := s.source.take (s.reads call) ++ more }.after call
      = ((s.after call).1, { (s.after call).2 with source := more }) := by
  have hlength := reads_le_length h
  have hreads : { s with source := s.source.take (s.reads call) ++ more }.reads call
      = s.reads call := by
    cases call <;> rfl
  have hdrop : (s.source.take (s.reads call) ++ more).drop (s.reads call) = more :=
    List.drop_left' (List.length_take_of_le hlength)
  have hreading : s.reads call ≠ 0 →
      { s with source := s.source.take (s.reads call) ++ more }.reading = s.reading := by
    intro hne
    have hone : s.reads call = 1 := by
      have hle := s.reads_le_one call
      omega
    rw [hone] at hlength
    obtain ⟨first, rest, hsource⟩ := List.exists_cons_of_length_pos hlength
    simp only [hone, reading, hsource]
    rfl
  rw [after_eq, told_congr hreading, hreads, hdrop, after_eq]
  cases htold : s.told call with
  | error e =>
    rw [after_eq, htold] at h
    cases h
  | ok outcome => rfl

/-- Without the calls that fail, a run is the same. -/
theorem run_withoutFailures (s : Station α) (calls : List Call) :
    { s with source := (s.withoutFailures calls).2 }.run (s.withoutFailures calls).1
      = s.run calls := by
  induction calls generalizing s with
  | nil => rfl
  | cons call rest ih =>
    rw [withoutFailures, run, ← ih]
    by_cases hok : (s.after call).1.isOk
    · simp only [if_pos hok, run, after_of_take hok, queued?]
    · simp only [if_neg hok]
      obtain ⟨e, hfailed⟩ : ∃ e, (s.after call).1 = .error e := by
        cases hafter : (s.after call).1 with
        | error e => exact ⟨e, rfl⟩
        | ok queued =>
          rw [hafter] at hok
          exact absurd rfl hok
      -- only the source has changed, and that is replaced
      have hnothing : s.queued? call = none := by
        rw [queued?, hfailed]
      rw [hnothing, after_of_error hfailed]
      rfl

/-! ## What is queued -/

/-- What a report is said to have queued is what it has put into the queue. -/
theorem pending_after_report (s : Station α) (moment : Moment) (processors : Nat) :
    (s.after (.report moment processors)).2.outlet.delivery.pending
      = s.outlet.delivery.pending ++
        (s.queued? (.report moment processors)).toList.map (Outlet.message moment.now) := by
  rw [queued?, after_eq]
  simp only [told]
  cases hreport : s.profiler.report s.outlet moment processors s.reading with
  | error e => exact (List.append_nil _).symm
  | ok outcome =>
    obtain ⟨queued, profiler, outlet⟩ := outcome
    cases queued <;> exact pending_report hreport

/-! ## At other times -/

/-- A call is made once more, at another time and with others at work in other ways. -/
inductive Again : Call → Call → Prop
  | record : Again .record .record
  | report (moment moment' : Moment) (processors : Nat) :
    Again (.report moment processors) (.report moment' processors)
  | meanwhile (mint mint' : Mint → Mint) (delivery delivery' : Delivery → Delivery) :
    Again (.meanwhile mint delivery) (.meanwhile mint' delivery')

/-- Two stations differ in what depends on the time and on others only. -/
structure Alike (s t : Station α) : Prop where
  settings : t.profiler.settings = s.profiler.settings
  metric : t.profiler.metric.undated = s.profiler.metric.undated
  pending : t.profiler.pending = s.profiler.pending
  windows : t.profiler.windows = s.profiler.windows
  config : t.outlet.config = s.outlet.config
  source : t.source = s.source

namespace Alike

omit [Quantity α] in
theorem refl (s : Station α) : Alike s s := ⟨rfl, rfl, rfl, rfl, rfl, rfl⟩

variable {s t : Station α}

omit [Quantity α] in
theorem reading (h : Alike s t) : t.reading = s.reading := by
  rw [Station.reading, Station.reading, h.source]

theorem callGraph (h : Alike s t) :
    t.profiler.callGraph t.reading = s.profiler.callGraph s.reading := by
  rw [Profiler.callGraph, Profiler.callGraph, h.settings, h.reading]

/-- Stations that are alike queue alike: the moments differ only in what is left out of an undated
record. -/
theorem queueTree (h : Alike s t) (moment moment' : Moment) (windows : Nat) (tree : Tree α) :
    let (queued, profiler, outlet) := s.profiler.queueTree s.outlet moment windows tree
    let (queued', profiler', outlet') := t.profiler.queueTree t.outlet moment' windows tree
    queued' = queued ∧
      Alike { s with profiler, outlet } { t with profiler := profiler', outlet := outlet' } := by
  have hmetric : (t.profiler.queueTree t.outlet moment' windows tree).2.1.metric.undated
      = (s.profiler.queueTree s.outlet moment windows tree).2.1.metric.undated := by
    simp only [Profiler.queueTree, h.settings]
    exact Metric.undated_observe h.metric _ _ moment moment' .timer _ _ _
  -- whether something is queued depends on what the metric holds, not on when it was observed
  have hqueued : (t.profiler.queueTree t.outlet moment' windows tree).1
      = (s.profiler.queueTree s.outlet moment windows tree).1 := by
    rw [queueTree_fst, queueTree_fst, ← Metric.isSome_measurement_undated, hmetric,
      Metric.isSome_measurement_undated]
  have hconfig : (t.profiler.queueTree t.outlet moment' windows tree).2.2.config
      = (s.profiler.queueTree s.outlet moment windows tree).2.2.config := by
    rw [config_queueTree, config_queueTree, h.config]
  exact ⟨hqueued, h.settings, hmetric, h.pending, h.windows, hconfig, h.source⟩

/-- From stations that are alike, a call goes the same way. -/
theorem told (h : Alike s t) {call call' : Call} (hcall : Again call call') :
    match s.told call, t.told call' with
    | .ok (queued, s'), .ok (queued', t') => queued' = queued ∧ Alike s' t'
    | .error e, .error e' => e' = e
    | _, _ => False := by
  cases hcall with
  | record =>
    simp only [Station.told, Profiler.record, h.callGraph]
    cases s.profiler.callGraph s.reading with
    | error e => rfl
    | ok window =>
      refine ⟨rfl, h.settings, h.metric, ?_, ?_, h.config, h.source⟩
      · simp only [h.pending]
      · simp only [h.windows]
  | report moment moment' processors =>
    simp only [Station.told]
    cases hmode : s.profiler.settings.mode with
    | snapshot =>
      rw [report_of_snapshot hmode, report_of_snapshot (by rw [h.settings]; exact hmode),
        h.callGraph, h.settings, h.config]
      cases s.profiler.callGraph s.reading with
      | error e => rfl
      | ok tree => exact h.queueTree moment moment' 1 _
    | windowed interval duration =>
      have hfinish : finish t.profiler.settings t.outlet.config.profileAgent processors
          t.profiler.windows.toNat t.profiler.pending
            = finish s.profiler.settings s.outlet.config.profileAgent processors
                s.profiler.windows.toNat s.profiler.pending := by
        rw [h.settings, h.config, h.windows, h.pending]
      have htaken : Alike
        { s with profiler := { s.profiler with pending := Tree.root, windows := 0 } }
        { t with profiler := { t.profiler with pending := Tree.root, windows := 0 } } :=
        ⟨h.settings, h.metric, rfl, rfl, h.config, h.source⟩
      by_cases hzero : s.profiler.windows = 0
      · rw [report_of_windows_eq_zero hmode hzero,
          report_of_windows_eq_zero (by rw [h.settings]; exact hmode) (h.windows.trans hzero)]
        exact ⟨rfl, htaken⟩
      · rw [report_of_windows_ne_zero hmode hzero,
          report_of_windows_ne_zero (by rw [h.settings]; exact hmode)
            (by rw [h.windows]; exact hzero), hfinish, h.windows]
        exact htaken.queueTree moment moment' _ _
  | meanwhile mint mint' delivery delivery' =>
    exact ⟨rfl, h.settings, h.metric, h.pending, h.windows, h.config, h.source⟩

/-- What is told of a call carries over to what it leaves behind. -/
theorem after (h : Alike s t) {call call' : Call} (hcall : Again call call') :
    (t.after call').1 = (s.after call).1 ∧ Alike (s.after call).2 (t.after call').2 := by
  have hreads : t.reads call' = s.reads call := by
    cases hcall with
    | report => rw [reads, reads, h.settings]
    | _ => rfl
  have htold := h.told hcall
  rw [after_eq, after_eq, hreads, h.source]
  cases hs : s.told call with
  | error e =>
    cases ht : t.told call' with
    | error e' =>
      rw [hs, ht] at htold
      obtain rfl : e' = e := htold
      exact ⟨rfl, h.settings, h.metric, h.pending, h.windows, h.config, rfl⟩
    | ok outcome =>
      rw [hs, ht] at htold
      cases htold
  | ok outcome =>
    cases ht : t.told call' with
    | error e =>
      rw [hs, ht] at htold
      cases htold
    | ok outcome' =>
      rw [hs, ht] at htold
      obtain ⟨hqueued, hnext⟩ := htold
      exact ⟨congrArg Except.ok hqueued, hnext.settings, hnext.metric, hnext.pending,
        hnext.windows, hnext.config, rfl⟩

theorem queued? (h : Alike s t) {call call' : Call} (hcall : Again call call') :
    (t.queued? call').map MetricRecord.undated = (s.queued? call).map MetricRecord.undated := by
  obtain ⟨houtcome, hafter⟩ := h.after hcall
  rw [Station.queued?, Station.queued?, houtcome]
  cases (s.after call).1 with
  | error e => rfl
  | ok queued =>
    cases queued with
    | false => rfl
    | true =>
      simp only [Option.map_some, Metric.undated_toRecord, hafter.metric]

/-- The same calls queue the same records, apart from ids and times. -/
theorem run (h : Alike s t) {calls calls' : List Call} (hcalls : List.Forall₂ Again calls calls') :
    (t.run calls').1.map MetricRecord.undated = (s.run calls).1.map MetricRecord.undated := by
  induction hcalls generalizing s t with
  | nil => rfl
  | cons hcall _ ih =>
    obtain ⟨-, hafter⟩ := h.after hcall
    simp only [Station.run, List.map_append, ih hafter, ← Option.toList_map, h.queued? hcall]

end Alike

/-! ## No trace -/

/-- What can be said of failures at a station. -/
structure Traceless (s : Station α) : Prop where
  /-- step by step, a call does what the operation does that is told what was read -/
  told : ∀ call, s.after call
    = match s.told call with
      | .ok (queued, s') => (.ok queued, { s' with source := s.source.drop (s.reads call) })
      | .error e => (.error e, { s with source := s.source.drop (s.reads call) })
  /-- a call fails if it reads something that has no call graph, and only then -/
  fails_iff : ∀ call, ¬ (s.after call).1.isOk ↔
    s.reads call ≠ 0 ∧ ∀ profile, s.reading = .ok profile →
      ¬ Foldable s.profiler.settings.valueKind s.profiler.settings.countKind profile
  /-- so the reports of a profiler that records windows never fail -/
  windowed : ∀ interval duration, s.profiler.settings.mode = .windowed interval duration →
    ∀ moment processors, (s.after (.report moment processors)).1.isOk
  /-- after a failure everything is as before, apart from the source -/
  unchanged : ∀ call e, (s.after call).1 = .error e →
    (s.after call).2 = { s with source := s.source.drop (s.reads call) }
  /-- what a report queues is the record of the metric -/
  queued : ∀ moment processors, (s.after (.report moment processors)).2.outlet.delivery.pending
    = s.outlet.delivery.pending ++
      (s.queued? (.report moment processors)).toList.map (Outlet.message moment.now)
  /-- without the calls that fail, and without what they read, a run is the same -/
  same : ∀ calls,
    { s with source := (s.withoutFailures calls).2 }.run (s.withoutFailures calls).1 = s.run calls
  /-- at other times, it is the same apart from ids and times -/
  similar : ∀ calls others, List.Forall₂ Again (s.withoutFailures calls).1 others →
    ({ s with source := (s.withoutFailures calls).2 }.run others).1.map MetricRecord.undated
      = (s.run calls).1.map MetricRecord.undated

/-- A call that fails leaves no trace, whatever it read and whenever that went wrong. -/
theorem failures_leave_no_trace (s : Station α) : Traceless s where
  told := s.after_eq
  fails_iff call := by
    rw [isOk_after_iff]
    simp only [not_or, not_exists, not_and]
  windowed interval duration hmode moment processors := by
    rw [isOk_after_iff]
    left
    rw [reads, hmode]
  unchanged call e hfailed := after_of_error hfailed
  queued := s.pending_after_report
  same := s.run_withoutFailures
  similar calls others hothers := by
    rw [← s.run_withoutFailures calls]
    exact (Alike.refl _).run hothers

end Operations

/-- A window of which the last sample is cut short. -/
def tornWindow : Profile :=
  { History.busyWindow 7 with
    samples := (History.busyWindow 7).samples ++ [{ frames := [], values := [1] }] }

/-- A profiler that finds a torn window between two good ones. -/
def tornStation : Station Rat :=
  let outlet : Outlet := { config := {}, delivery := Delivery.create {} 600 false }
  { profiler := create outlet History.busySettings, outlet
    source := [.ok (History.busyWindow 5), .ok tornWindow, .ok (History.busyWindow 9)] }

example :
    (tornStation.withoutFailures [.record, .record, .record]).1.length = 2 ∧
      (tornStation.run [.record, .record, .record]).2.profiler.windows = 2 := by
  decide +kernel

end Station

end Telemetry.Profiler
