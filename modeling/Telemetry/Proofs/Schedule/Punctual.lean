import Mathlib.Data.List.Nodup
import Mathlib.Logic.Relation
import Telemetry.Proofs.Schedule.Course
import Telemetry.Schedule.Roster

/-!
# Schedules that are kept

A roster at work is a `Shift`. Its timers are woken one after the other, each of them on time and with
any delay that may be drawn. The callbacks that they launch end whenever they like, or panic, or never
end. As timers take no notice of that, all of them stay on their courses (`Shift.OnCourse`), and the
schedules from which they were started are kept (`Schedule.KeptIn`): no two windows of a schedule
overlap, and every report is made just when it should be.

Each time that a timer is woken it wants to be woken later. So whoever goes on waking timers gets past
any time that a clock can show (`Shift.OnCourse.gets_past`), and by then all has been launched that
the schedules promise up to that time. A timer whose first deadline lies past the last instant is not
started (`Schedule.started`). It is missed by nobody, as nothing is due from it at any time there is.
-/

namespace Telemetry

/-! ## Rosters -/

namespace Roster

variable {κ : Type}

/-- What never changes about the timers of a roster. -/
def rhythms (r : Roster κ) : List (κ × Duration × Option RecordPlan) :=
  r.timers.map fun (tag, timer) => (tag, timer.rhythm)

/-- What tells a timer from all others: its tag, and whether it records windows. -/
def key (entry : κ × Duration × Option RecordPlan) : κ × Bool := (entry.1, entry.2.2.isSome)

/-- The timer that is woken next. -/
def due? (r : Roster κ) (now : Instant) : Option (κ × Timer) :=
  r.timers.find? fun (_, timer) => decide (timer.wakesAt ≤ now)

/-- The earlier of a time and the one at which a timer wants to be woken. -/
def sooner (earliest : Option Instant) (entry : κ × Timer) : Option Instant :=
  match earliest with
  | some e => if entry.2.wakesAt < e then some entry.2.wakesAt else earliest
  | none => some entry.2.wakesAt

theorem sooner_eq (earliest : Option Instant) (entry : κ × Timer) :
    ∃ e, sooner earliest entry = some e ∧ (earliest = some e ∨ entry.2.wakesAt = e) ∧
      e ≤ entry.2.wakesAt ∧ ∀ before, earliest = some before → e ≤ before := by
  cases earliest with
  | none => exact ⟨entry.2.wakesAt, rfl, .inr rfl, Nat.le_refl _, fun _ hnone => nomatch hnone⟩
  | some before =>
    by_cases hlt : entry.2.wakesAt < before
    · refine ⟨entry.2.wakesAt, if_pos hlt, .inr rfl, Nat.le_refl _, ?_⟩
      rintro _ ⟨⟩
      exact Nat.le_of_lt hlt
    · refine ⟨before, if_neg hlt, .inl rfl, Nat.le_of_not_lt hlt, ?_⟩
      rintro _ ⟨⟩
      exact Nat.le_refl _

theorem foldl_sooner_eq_some {timers : List (κ × Timer)} {earliest : Option Instant}
    {now : Instant} (h : timers.foldl sooner earliest = some now) :
    (earliest = some now ∨ ∃ entry ∈ timers, entry.2.wakesAt = now) ∧
      (∀ before, earliest = some before → now ≤ before) ∧
      ∀ entry ∈ timers, now ≤ entry.2.wakesAt := by
  induction timers generalizing earliest with
  | nil =>
    rw [List.foldl_nil] at h
    subst h
    refine ⟨.inl rfl, ?_, fun _ hmem => nomatch hmem⟩
    rintro _ ⟨⟩
    exact Nat.le_refl _
  | cons entry rest ih =>
    obtain ⟨e, hsooner, hfrom, hle, hbefore⟩ := sooner_eq earliest entry
    rw [List.foldl_cons, hsooner] at h
    obtain ⟨hnow, hnowe, hrest⟩ := ih h
    have hnowe : now ≤ e := hnowe e rfl
    refine ⟨?_, fun before hb => Nat.le_trans hnowe (hbefore before hb), ?_⟩
    · rcases hnow with hnow | ⟨other, hmem, hother⟩
      · obtain rfl := Option.some.inj hnow
        rcases hfrom with hfrom | hfrom
        · exact .inl hfrom
        · exact .inr ⟨entry, List.mem_cons_self, hfrom⟩
      · exact .inr ⟨other, List.mem_cons_of_mem _ hmem, hother⟩
    · intro other hmem
      rcases List.mem_cons.mp hmem with rfl | hmem
      · exact Nat.le_trans hnowe hle
      · exact hrest other hmem

/-- The next time to wake a timer is the first at which any of them wants to be woken. -/
theorem wakesAt?_eq_some {r : Roster κ} {now : Instant} (h : r.wakesAt? = some now) :
    (∃ entry ∈ r.timers, entry.2.wakesAt = now) ∧ ∀ entry ∈ r.timers, now ≤ entry.2.wakesAt := by
  have hfold : r.timers.foldl sooner none = some now := h
  obtain ⟨hnow, -, hall⟩ := foldl_sooner_eq_some hfold
  rcases hnow with hnone | hnow
  · cases hnone
  · exact ⟨hnow, hall⟩

/-- The timer that is woken next wants to be woken just then. -/
theorem wake_eq {r : Roster κ} {now : Instant} (h : r.wakesAt? = some now) (delay : Duration) :
    ∃ i tag timer, r.timers[i]? = some (tag, timer) ∧ timer.wakesAt = now ∧
      r.due? now = some (tag, timer) ∧
      r.wake now delay
        = ((timer.wake now delay).1.map (tag, ·),
            { timers := r.timers.set i (tag, (timer.wake now delay).2) }) := by
  obtain ⟨⟨first, hmem, hfirst⟩, hall⟩ := wakesAt?_eq_some h
  cases hindex : r.timers.findIdx? fun (_, timer) => decide (timer.wakesAt ≤ now) with
  | none =>
    have hnot : decide (first.2.wakesAt ≤ now) = false :=
      List.findIdx?_eq_none_iff.mp hindex first hmem
    rw [hfirst] at hnot
    exact absurd (Nat.le_refl _) (of_decide_eq_false hnot)
  | some i =>
    obtain ⟨hlt, hle, hbefore⟩ := List.findIdx?_eq_some_iff_getElem.mp hindex
    rcases hentry : r.timers[i] with ⟨tag, timer⟩
    have hget : r.timers[i]? = some (tag, timer) := by rw [List.getElem?_eq_getElem hlt, hentry]
    have hdue : timer.wakesAt ≤ now := by
      rw [hentry] at hle
      exact of_decide_eq_true hle
    have hpast : now ≤ timer.wakesAt := hall (tag, timer) (List.mem_of_getElem? hget)
    refine ⟨i, tag, timer, hget, ?_, ?_, ?_⟩
    · exact congrArg Instant.mk (Nat.le_antisymm hdue hpast)
    · exact List.find?_eq_some_iff_getElem.mpr ⟨decide_eq_true hdue, i, hlt, hentry, fun j hj => by
        simpa using hbefore j hj⟩
    · rw [wake, hindex]
      simp only [hget]

theorem rhythms_wake {r : Roster κ} {now : Instant} (h : r.wakesAt? = some now)
    (delay : Duration) : (r.wake now delay).2.rhythms = r.rhythms := by
  obtain ⟨i, tag, timer, hi, -, -, hwake⟩ := wake_eq h delay
  obtain ⟨hlt, -⟩ := List.getElem?_eq_some_iff.mp hi
  rw [hwake, rhythms, rhythms, List.map_set]
  apply List.ext_getElem?
  intro j
  by_cases hij : i = j
  · subst hij
    rw [List.getElem?_set_self (by rwa [List.length_map]), List.getElem?_map, hi]
    exact congrArg (fun rhythm => some (tag, rhythm)) (Timer.rhythm_wake now delay timer)
  · rw [List.getElem?_set_ne hij]

/-- There is a next time unless there are no timers. -/
theorem exists_wakesAt? {r : Roster κ} (h : r.timers ≠ []) : ∃ now, r.wakesAt? = some now := by
  have hfrom : ∀ (timers : List (κ × Timer)) (e : Instant),
      ∃ now, timers.foldl sooner (some e) = some now := by
    intro timers
    induction timers with
    | nil => exact fun e => ⟨e, rfl⟩
    | cons entry rest ih =>
      intro e
      obtain ⟨e', hsooner, -⟩ := sooner_eq (some e) entry
      rw [List.foldl_cons, hsooner]
      exact ih e'
  obtain ⟨first, rest, htimers⟩ := List.exists_cons_of_ne_nil h
  obtain ⟨now, hnow⟩ := hfrom rest first.2.wakesAt
  refine ⟨now, ?_⟩
  rw [← hnow, wakesAt?, htimers]
  rfl

/-- A delay that all plans allow may be drawn for any timer. -/
theorem draws_of_allows {r : Roster κ} {delay : Duration}
    (h : ∀ entry ∈ r.rhythms, ∀ plan ∈ entry.2.2, plan.allows delay) {now : Instant}
    {entry : κ × Timer} (hdue : r.due? now = some entry) : entry.2.Draws delay := by
  have hmem : (entry.1, entry.2.rhythm) ∈ r.rhythms :=
    List.mem_map.mpr ⟨entry, List.mem_of_find?_eq_some hdue, rfl⟩
  obtain ⟨tag, timer⟩ := entry
  cases timer with
  | report ticker => trivial
  | record ticker plan launch =>
    cases launch with
    | some launch => trivial
    | none => exact h _ hmem plan rfl

/-- How much can still be done up to a time. -/
def slack (limit : Instant) (r : Roster κ) : Nat :=
  r.timers.foldr (fun entry rest => limit.nanos + 1 - entry.2.wakesAt.nanos + rest) 0

/-- It gets less when a timer is put off that wanted to be woken by then, and never more. -/
theorem slack_set {limit : Instant} {timers : List (κ × Timer)} {i : Nat} {tag : κ}
    {timer timer' : Timer} (hi : timers[i]? = some (tag, timer))
    (hlater : timer.wakesAt < timer'.wakesAt) :
    slack limit { timers := timers.set i (tag, timer') } ≤ slack limit { timers } ∧
      (timer.wakesAt ≤ limit →
        slack limit { timers := timers.set i (tag, timer') } < slack limit { timers }) := by
  have hlater' : timer.wakesAt.nanos < timer'.wakesAt.nanos := hlater
  change _ ∧ (timer.wakesAt.nanos ≤ limit.nanos → _)
  induction timers generalizing i with
  | nil => cases hi
  | cons first rest ih =>
    cases i with
    | zero =>
      cases hi
      simp only [List.set_cons_zero, slack, List.foldr_cons]
      omega
    | succ i =>
      have hrest := ih hi
      simp only [List.set_cons_succ, slack, List.foldr_cons] at hrest ⊢
      omega

end Roster

/-! ## At work -/

/-- A roster at work. -/
structure Shift (κ : Type) where
  roster : Roster κ
  /-- what was launched and when, in this order -/
  launched : List (Instant × κ × Action) := []
  /-- the callbacks that have not ended -/
  underway : List (κ × Action) := []
  /-- the callbacks that panicked -/
  panicked : List (κ × Action × Panic) := []

namespace Shift

variable {κ : Type}

/-- The next timer is woken. What it launches is a callback of its own. -/
def wake (s : Shift κ) (now : Instant) (delay : Duration) : Shift κ :=
  let (due, roster) := s.roster.wake now delay
  { s with
    roster
    launched := s.launched ++ (due.map (now, ·)).toList
    underway := s.underway ++ due.toList }

/-- A callback ends, which may be in a panic. -/
def finish (s : Shift κ) (i : Nat) (panic : Option Panic) : Shift κ :=
  match s.underway[i]? with
  | some (tag, action) =>
    { s with
      underway := s.underway.eraseIdx i
      panicked := s.panicked ++ (panic.map (tag, action, ·)).toList }
  | none => s

theorem roster_finish (s : Shift κ) (i : Nat) (panic : Option Panic) :
    (s.finish i panic).roster = s.roster := by
  rw [finish]
  split <;> rfl

/-- What may happen next if timers are woken on time. -/
inductive Step : Shift κ → Shift κ → Prop where
  /-- a timer is woken when it wants to be, with any delay that may be drawn -/
  | wake {s : Shift κ} {now : Instant} {delay : Duration}
      (hshown : now ≤ Instant.last) (htime : s.roster.wakesAt? = some now)
      (hdelay : ∀ entry, s.roster.due? now = some entry → entry.2.Draws delay) :
      Step s (s.wake now delay)
  /-- a callback ends, whenever it likes -/
  | finish (s : Shift κ) (i : Nat) (panic : Option Panic) : Step s (s.finish i panic)

/-- A timer is woken on time, and then anything else may happen. -/
def Next (s s' : Shift κ) : Prop :=
  ∃ now delay, now ≤ Instant.last ∧ s.roster.wakesAt? = some now ∧
    (∀ entry, s.roster.due? now = some entry → entry.2.Draws delay) ∧
    Relation.ReflTransGen Step (s.wake now delay) s'

/-- All that was to be done by a time has been done: every timer waits for a later one. -/
def Past (s : Shift κ) (limit : Instant) : Prop :=
  ∀ entry ∈ s.roster.timers, limit < entry.2.wakesAt

theorem past_of_lt {s : Shift κ} {limit now : Instant} (htime : s.roster.wakesAt? = some now)
    (hlt : limit < now) : s.Past limit := fun entry hmem =>
  Nat.lt_of_lt_of_le hlt ((Roster.wakesAt?_eq_some htime).2 entry hmem)

/-- Until all is done that was to be done by a time, the next timer can be woken. -/
theorem past_or_next (s : Shift κ) {limit : Instant} (hlimit : limit ≤ Instant.last) :
    s.Past limit ∨ ∃ s', Next s s' := by
  cases htime : s.roster.wakesAt? with
  | none =>
    refine .inl fun entry hmem => ?_
    obtain ⟨now, hnow⟩ := Roster.exists_wakesAt? (List.ne_nil_of_mem hmem)
    rw [htime] at hnow
    cases hnow
  | some now =>
    by_cases hle : now ≤ limit
    · refine .inr ⟨_, now, .zero, Nat.le_trans hle hlimit, htime, fun entry hdue => ?_, .refl⟩
      exact Roster.draws_of_allows (fun _ _ plan _ => plan.allows_zero) hdue
    · exact .inl (past_of_lt htime (Nat.lt_of_not_le hle))

/-- To run a roster up to a time is to wake its timers on time, with the same delay every time. -/
theorem reaches_runUntil (delay : Duration) {limit : Instant} (hlimit : limit ≤ Instant.last)
    (fuel : Nat) (s : Shift κ)
    (h : ∀ entry ∈ s.roster.rhythms, ∀ plan ∈ entry.2.2, plan.allows delay) :
    ∃ s', Relation.ReflTransGen Step s s' ∧
      s'.launched = s.launched ++ (s.roster.runUntil delay limit fuel).1 ∧
      s'.roster = (s.roster.runUntil delay limit fuel).2 := by
  induction fuel generalizing s with
  | zero => exact ⟨s, .refl, (List.append_nil _).symm, rfl⟩
  | succ fuel ih =>
    rw [Roster.runUntil]
    cases htime : s.roster.wakesAt? with
    | none => exact ⟨s, .refl, (List.append_nil _).symm, rfl⟩
    | some t =>
      by_cases hlt : t < limit
      · have hstep : Step s (s.wake t delay) :=
          .wake (Nat.le_trans (Nat.le_of_lt hlt) hlimit) htime fun entry hdue =>
            Roster.draws_of_allows h hdue
        obtain ⟨s', hrun, hlaunched, hroster⟩ := ih (s.wake t delay) (by
          rw [show (s.wake t delay).roster = (s.roster.wake t delay).2 from rfl,
            Roster.rhythms_wake htime]
          exact h)
        refine ⟨s', .head hstep hrun, ?_, ?_⟩
        · rw [hlaunched]
          cases hdue : (s.roster.wake t delay).1 <;> simp [wake, hdue, hlt]
        · rw [hroster]
          cases hdue : (s.roster.wake t delay).1 <;> simp [wake, hdue, hlt]
      · simp only [if_neg hlt]
        exact ⟨s, .refl, (List.append_nil _).symm, rfl⟩

variable [DecidableEq κ]

/-- What was launched under a tag: the windows, or the reports. -/
def launches (s : Shift κ) (tag : κ) (windows : Bool) : List (Instant × Action) :=
  s.launched.filterMap fun (t, other, action) =>
    if other = tag ∧ action.isRecord = windows then some (t, action) else none

/-- Every timer is on its course, and nobody else launches anything. -/
structure OnCourse (begun : Instant) (rhythms : List (κ × Duration × Option RecordPlan))
    (s : Shift κ) : Prop where
  rhythms : s.roster.rhythms = rhythms
  timers : ∀ (i : Nat) tag timer, s.roster.timers[i]? = some (tag, timer) →
    timer.OnCourse begun (s.launches tag timer.rhythm.2.isSome)
  known : ∀ launch ∈ s.launched,
    (launch.2.1, launch.2.2.isRecord) ∈ s.roster.rhythms.map Roster.key

variable {s : Shift κ} {begun : Instant} {rhythms : List (κ × Duration × Option RecordPlan)}

/-- What a timer launches is among what was launched under its tag, and nowhere else. -/
theorem launches_wake {now : Instant} {delay : Duration} {tag : κ} {timer : Timer}
    (h : (s.roster.wake now delay).1 = (timer.wake now delay).1.map (tag, ·)) (other : κ)
    (windows : Bool) :
    (s.wake now delay).launches other windows
      = s.launches other windows ++
        if tag = other ∧ timer.rhythm.2.isSome = windows then
          ((timer.wake now delay).1.map (now, ·)).toList
        else [] := by
  simp only [wake, launches, List.filterMap_append, h]
  congr 1
  cases hdone : (timer.wake now delay).1 with
  | none => simp
  | some action =>
    have hkind := Timer.isRecord_of_wake hdone
    by_cases hmine : tag = other ∧ timer.rhythm.2.isSome = windows
    · simp [hmine, hkind]
    · simp [hmine, hkind]

theorem OnCourse.wake (h : s.OnCourse begun rhythms)
    (hkeys : (rhythms.map Roster.key).Nodup) {now : Instant}
    {delay : Duration} (htime : s.roster.wakesAt? = some now)
    (hdelay : ∀ entry, s.roster.due? now = some entry → entry.2.Draws delay) :
    (s.wake now delay).OnCourse begun rhythms := by
  obtain ⟨i, tag, timer, hi, rfl, hdue, hwake⟩ := Roster.wake_eq htime delay
  have hlaunches := launches_wake (congrArg Prod.fst hwake)
  have hroster : (s.wake timer.wakesAt delay).roster
      = { timers := s.roster.timers.set i (tag, (timer.wake timer.wakesAt delay).2) } :=
    congrArg Prod.snd hwake
  obtain ⟨hlt, -⟩ := List.getElem?_eq_some_iff.mp hi
  refine ⟨?rhythms, ?timers, ?known⟩
  case rhythms => exact (Roster.rhythms_wake htime delay).trans h.rhythms
  case known =>
    intro launch hmem
    rw [show (s.wake timer.wakesAt delay).roster.rhythms = s.roster.rhythms from
      Roster.rhythms_wake htime delay]
    simp only [Shift.wake, hwake, List.mem_append, Option.mem_toList, Option.map_map,
      Option.map_eq_some_iff, Function.comp_apply] at hmem
    obtain hmem | ⟨action, hdone, rfl⟩ := hmem
    · exact h.known launch hmem
    · rw [Timer.isRecord_of_wake hdone]
      exact List.mem_map_of_mem (List.mem_map_of_mem (List.mem_of_getElem? hi))
  case timers =>
    intro j other timer' hj
    rw [hroster] at hj
    rw [hlaunches]
    by_cases hij : i = j
    · subst hij
      rw [List.getElem?_set_self hlt] at hj
      cases hj
      rw [Timer.rhythm_wake, if_pos ⟨rfl, rfl⟩]
      exact (h.timers i tag timer hi).wake (hdelay _ hdue)
    · rw [List.getElem?_set_ne hij] at hj
      -- another timer has another tag, or is of the other kind
      rw [if_neg, List.append_nil]
      · exact h.timers j other timer' hj
      · rintro ⟨rfl, hkind⟩
        refine hij ((List.getElem?_inj ?_ hkeys).mp ?_)
        · rw [← h.rhythms, Roster.rhythms, List.map_map, List.length_map]
          exact hlt
        · simp only [← h.rhythms, Roster.rhythms, List.map_map, List.getElem?_map, hi, hj,
            Option.map_some, Function.comp_apply, Roster.key, hkind]

theorem OnCourse.finish (h : s.OnCourse begun rhythms) (i : Nat) (panic : Option Panic) :
    (s.finish i panic).OnCourse begun rhythms := by
  rw [Shift.finish]
  split
  · exact ⟨h.rhythms, h.timers, h.known⟩
  · exact h

/-- Timers that are woken on time stay on their courses for ever, whatever becomes of callbacks. -/
theorem OnCourse.run (h : s.OnCourse begun rhythms) (hkeys : (rhythms.map Roster.key).Nodup)
    {s' : Shift κ} (hrun : Relation.ReflTransGen Step s s') : s'.OnCourse begun rhythms := by
  induction hrun with
  | refl => exact h
  | tail _ hstep ih =>
    cases hstep with
    | wake _ htime hdelay => exact ih.wake hkeys htime hdelay
    | finish i panic => exact ih.finish i panic

/-- The timers of a shift that is on course are not done for ever. -/
theorem OnCourse.slack_wake (h : s.OnCourse begun rhythms)
    (hperiods : ∀ entry ∈ rhythms, entry.2.1.isZero = false)
    {now : Instant} (htime : s.roster.wakesAt? = some now) (delay : Duration) (limit : Instant) :
    Roster.slack limit (s.wake now delay).roster ≤ Roster.slack limit s.roster ∧
      (now ≤ limit → Roster.slack limit (s.wake now delay).roster < Roster.slack limit s.roster) := by
  obtain ⟨i, tag, timer, hi, rfl, -, hwake⟩ := Roster.wake_eq htime delay
  have hroster : (s.wake timer.wakesAt delay).roster
      = { timers := s.roster.timers.set i (tag, (timer.wake timer.wakesAt delay).2) } :=
    congrArg Prod.snd hwake
  have hperiod : timer.rhythm.1.isZero = false := by
    have hmem : (tag, timer.rhythm) ∈ rhythms := by
      rw [← h.rhythms]
      exact List.mem_map.mpr ⟨(tag, timer), List.mem_of_getElem? hi, rfl⟩
    exact hperiods _ hmem
  rw [hroster]
  exact Roster.slack_set hi (Timer.wakesAt_lt_wake (h.timers i tag timer hi).pending hperiod delay)

theorem OnCourse.slack_run (h : s.OnCourse begun rhythms) (hkeys : (rhythms.map Roster.key).Nodup)
    (hperiods : ∀ entry ∈ rhythms, entry.2.1.isZero = false) {s' : Shift κ}
    (hrun : Relation.ReflTransGen Step s s') (limit : Instant) :
    Roster.slack limit s'.roster ≤ Roster.slack limit s.roster := by
  induction hrun with
  | refl => exact Nat.le_refl _
  | tail hbefore hstep ih =>
    cases hstep with
    | wake _ htime _ =>
      have hcourse := h.run hkeys hbefore
      exact Nat.le_trans (hcourse.slack_wake hperiods htime _ limit).1 ih
    | finish i panic => rwa [roster_finish]

/-- Whoever goes on waking timers on time gets past any time, whatever callbacks do meanwhile. -/
theorem OnCourse.gets_past (hkeys : (rhythms.map Roster.key).Nodup)
    (hperiods : ∀ entry ∈ rhythms, entry.2.1.isZero = false) {shifts : Nat → Shift κ}
    (h : (shifts 0).OnCourse begun rhythms) {limit : Instant}
    (hnext : ∀ n, (shifts n).Past limit ∨ Next (shifts n) (shifts (n + 1))) :
    ∃ n, (shifts n).Past limit := by
  by_contra hnever
  have hgoes (n : Nat) : Next (shifts n) (shifts (n + 1)) :=
    (hnext n).resolve_left fun hpast => hnever ⟨n, hpast⟩
  -- as long as the limit is not passed, there is less to do after each step
  have hless : ∀ n, (shifts n).OnCourse begun rhythms ∧
      Roster.slack limit (shifts n).roster + n ≤ Roster.slack limit (shifts 0).roster := by
    intro n
    induction n with
    | zero => exact ⟨h, Nat.le_refl _⟩
    | succ n ih =>
      obtain ⟨hcourse, hslack⟩ := ih
      obtain ⟨now, delay, -, htime, hdelay, hrest⟩ := hgoes n
      have hle : now ≤ limit := Nat.le_of_not_lt fun hlt => hnever ⟨n, past_of_lt htime hlt⟩
      have hwoken := hcourse.wake hkeys htime hdelay
      have hdone := (hcourse.slack_wake hperiods htime delay limit).2 hle
      have hafter := hwoken.slack_run hkeys hperiods hrest limit
      exact ⟨hwoken.run hkeys hrest, by omega⟩
  have hend := (hless (Roster.slack limit (shifts 0).roster + 1)).2
  omega

end Shift

/-! ## Schedules -/

namespace Schedule

variable {κ : Type}

/-- A schedule can be run: it has an interval for reports, and its windows fit into theirs. -/
structure Sound (s : Schedule) : Prop where
  reportInterval : s.reportInterval.isZero = false
  record : ∀ plan ∈ s.record, plan.Sound

/-- What the timers of a schedule are for. -/
def rhythms (s : Schedule) : List (Duration × Option RecordPlan) :=
  s.record.toList.map (fun plan => (plan.interval, some plan)) ++ [(s.reportInterval, none)]

/-- The timer of a rhythm that is started. -/
def starting (now : Instant) : Duration × Option RecordPlan → Timer
  | (period, none) => .report { period, deadline := now.plus period }
  | (period, some plan) => .record { period, deadline := now.plus period } plan none

@[simp] theorem rhythm_starting (now : Instant) (rhythm : Duration × Option RecordPlan) :
    (starting now rhythm).rhythm = rhythm := by
  obtain ⟨period, plan⟩ := rhythm
  cases plan <;> rfl

/-- What those timers of a schedule are for that are started with it: all but those of which no clock
can show the first deadline. -/
def started (s : Schedule) (now : Instant) : List (Duration × Option RecordPlan) :=
  s.rhythms.filter fun rhythm => (now.plus? rhythm.1).isSome

/-- A timer that can be run is started if its first deadline can be shown. -/
theorem Sound.start {s : Schedule} (h : s.Sound) (now : Instant) :
    s.start now
      = s.rhythms.map fun rhythm => (now.plus? rhythm.1).map fun _ => starting now rhythm := by
  have hstart : ∀ period : Duration, period.isZero = false → Ticker.start? now period
      = (now.plus? period).map fun _ => { period, deadline := now.plus period } := by
    intro period hperiod
    rw [Ticker.start?, hperiod]
    cases hfirst : now.plus? period with
    | none => rfl
    | some deadline =>
      obtain ⟨rfl, -⟩ := Instant.plus?_eq_some_iff.mp hfirst
      rfl
  cases hrecord : s.record with
  | none =>
    simp only [Schedule.start, rhythms, hrecord, hstart _ h.reportInterval, Option.map_map]
    rfl
  | some plan =>
    simp only [Schedule.start, rhythms, hrecord, hstart _ h.reportInterval,
      hstart _ (h.record plan hrecord).interval, Option.map_map]
    rfl

theorem Sound.ofSchedule {s : Schedule} (h : s.Sound) (tag : κ) (now : Instant) :
    (Roster.ofSchedule tag s now).timers
      = (s.started now).map fun rhythm => (tag, starting now rhythm) := by
  rw [Roster.ofSchedule, h.start, started, ← List.filterMap_eq_filter, List.map_filterMap]
  simp only [List.filterMap_map]
  refine List.filterMap_congr fun rhythm _ => ?_
  cases hfirst : now.plus? rhythm.1 <;> simp [Option.guard, hfirst]

theorem mem_rhythms_iff {s : Schedule} {rhythm : Duration × Option RecordPlan} :
    rhythm ∈ s.rhythms ↔
      (∃ plan ∈ s.record, (plan.interval, some plan) = rhythm) ∨
        rhythm = (s.reportInterval, none) := by
  simp [rhythms]

theorem mem_started_iff {s : Schedule} {now : Instant} {rhythm : Duration × Option RecordPlan} :
    rhythm ∈ s.started now ↔ rhythm ∈ s.rhythms ∧ now.plus rhythm.1 ≤ Instant.last := by
  simp only [started, List.mem_filter, Option.isSome_iff_exists, Instant.plus?_eq_some_iff]
  constructor
  · rintro ⟨hmem, _, rfl, hle⟩
    exact ⟨hmem, hle⟩
  · rintro ⟨hmem, hle⟩
    exact ⟨hmem, _, rfl, hle⟩

theorem Sound.period {s : Schedule} (h : s.Sound) {rhythm : Duration × Option RecordPlan}
    (hmem : rhythm ∈ s.rhythms) : rhythm.1.isZero = false := by
  obtain ⟨plan, hplan, rfl⟩ | rfl := mem_rhythms_iff.mp hmem
  · exact (h.record plan hplan).interval
  · exact h.reportInterval

/-- The first deadline lies one period after the start. -/
theorem Sound.pending {s : Schedule} (h : s.Sound) {rhythm : Duration × Option RecordPlan}
    (hmem : rhythm ∈ s.rhythms) (now : Instant) : (starting now rhythm).Pending now 0 := by
  obtain ⟨plan, hplan, rfl⟩ | rfl := mem_rhythms_iff.mp hmem
  · exact ⟨h.record plan hplan, rfl, now.plus_eq_afterPeriods _⟩
  · exact now.plus_eq_afterPeriods _

end Schedule

namespace Roster

variable {κ : Type}

/-- The timers of some schedules that are started. -/
def ofSchedules (schedules : List (κ × Schedule)) (now : Instant) : Roster κ :=
  .concat (schedules.map fun (tag, s) => .ofSchedule tag s now)

/-- What those timers of some schedules are for that are started. -/
def rhythmsOf (schedules : List (κ × Schedule)) (now : Instant) :
    List (κ × Duration × Option RecordPlan) :=
  schedules.flatMap fun (tag, s) => (s.started now).map (tag, ·)

theorem mem_rhythmsOf_iff {schedules : List (κ × Schedule)} {now : Instant} {tag : κ}
    {rhythm : Duration × Option RecordPlan} :
    (tag, rhythm) ∈ rhythmsOf schedules now ↔
      ∃ s, (tag, s) ∈ schedules ∧ rhythm ∈ s.started now := by
  simp [rhythmsOf]

theorem timers_ofSchedules {schedules : List (κ × Schedule)}
    (hsound : ∀ entry ∈ schedules, entry.2.Sound) (now : Instant) :
    (ofSchedules schedules now).timers
      = (rhythmsOf schedules now).map fun (tag, rhythm) =>
          (tag, Schedule.starting now rhythm) := by
  rw [ofSchedules, concat, rhythmsOf, List.flatMap_map, List.map_flatMap]
  refine List.flatMap_congr fun entry hmem => ?_
  rw [(hsound entry hmem).ofSchedule, List.map_map]
  rfl

theorem periods {schedules : List (κ × Schedule)} (hsound : ∀ entry ∈ schedules, entry.2.Sound)
    (now : Instant) : ∀ entry ∈ rhythmsOf schedules now, entry.2.1.isZero = false := by
  rintro ⟨tag, rhythm⟩ hmem
  obtain ⟨s, hschedule, hrhythm⟩ := mem_rhythmsOf_iff.mp hmem
  exact (hsound _ hschedule).period (Schedule.mem_started_iff.mp hrhythm).1

theorem mem_ofSchedules {schedules : List (κ × Schedule)}
    (hsound : ∀ entry ∈ schedules, entry.2.Sound) {tag : κ} {s : Schedule}
    (hmem : (tag, s) ∈ schedules) {rhythm : Duration × Option RecordPlan}
    (hrhythm : rhythm ∈ s.rhythms) {now deadline : Instant}
    (hfirst : now.plus? rhythm.1 = some deadline) :
    (tag, Schedule.starting now rhythm) ∈ (ofSchedules schedules now).timers := by
  obtain ⟨rfl, hshown⟩ := Instant.plus?_eq_some_iff.mp hfirst
  have hstarted := Schedule.mem_started_iff.mpr ⟨hrhythm, hshown⟩
  rw [timers_ofSchedules hsound]
  exact List.mem_map.mpr ⟨(tag, rhythm), mem_rhythmsOf_iff.mpr ⟨s, hmem, hstarted⟩, rfl⟩

/-- Under different tags, timers are told apart by their tags and kinds. -/
theorem nodup_keys {schedules : List (κ × Schedule)} (htags : (schedules.map Prod.fst).Nodup)
    (now : Instant) : ((rhythmsOf schedules now).map key).Nodup := by
  rw [rhythmsOf, List.map_flatMap, List.nodup_flatMap]
  constructor
  · rintro ⟨tag, s⟩ -
    have hall : ((s.rhythms.map (tag, ·)).map key).Nodup := by
      cases hrecord : s.record with
      | none => simp [Schedule.rhythms, hrecord]
      | some plan => simp [Schedule.rhythms, hrecord, key]
    exact ((List.filter_sublist.map _).map _).nodup hall
  · have htag : ∀ (entry : κ × Schedule) (k : κ × Bool),
        k ∈ ((entry.2.started now).map (entry.1, ·)).map key → k.1 = entry.1 := by
      intro entry k hk
      rw [List.map_map] at hk
      obtain ⟨rhythm, -, rfl⟩ := List.mem_map.mp hk
      rfl
    refine (List.pairwise_map.mp htags).imp fun {first second} hne k hfirst hsecond => ?_
    exact hne ((htag first k hfirst).symm.trans (htag second k hsecond))

/-- Under different tags, the tag and the kind of a timer say what it is for. -/
theorem exists_started {schedules : List (κ × Schedule)} (htags : (schedules.map Prod.fst).Nodup)
    {now : Instant} {tag : κ} {s : Schedule} (hmem : (tag, s) ∈ schedules) {windows : Bool}
    (hkey : (tag, windows) ∈ (rhythmsOf schedules now).map key) :
    ∃ rhythm ∈ s.started now, rhythm.2.isSome = windows := by
  obtain ⟨⟨_, rhythm⟩, hrhythm, heq⟩ := List.mem_map.mp hkey
  cases heq
  obtain ⟨other, hother, hstarted⟩ := mem_rhythmsOf_iff.mp hrhythm
  cases List.inj_on_of_nodup_map htags hother hmem rfl
  exact ⟨rhythm, hstarted, rfl⟩

/-- A timer is started if anything is due from it by a time that a clock can show. -/
theorem mem_rhythmsOf_of_due {schedules : List (κ × Schedule)} {tag : κ} {s : Schedule}
    (hmem : (tag, s) ∈ schedules) {rhythm : Duration × Option RecordPlan}
    (hrhythm : rhythm ∈ s.rhythms) {begun limit : Instant} (hlimit : limit ≤ Instant.last) {n : Nat}
    (hdue : begun.afterPeriods (n + 1) rhythm.1 ≤ limit) :
    (tag, rhythm) ∈ rhythmsOf schedules begun := by
  have hfirst : begun.plus rhythm.1 ≤ begun.afterPeriods (n + 1) rhythm.1 := by
    rw [begun.plus_eq_afterPeriods]
    exact begun.afterPeriods_mono (Nat.le_add_left 1 n) _
  exact mem_rhythmsOf_iff.mpr ⟨s, hmem, Schedule.mem_started_iff.mpr
    ⟨hrhythm, Nat.le_trans hfirst (Nat.le_trans hdue hlimit)⟩⟩

end Roster

namespace Shift

variable {κ : Type} [DecidableEq κ]

theorem onCourse_ofSchedules {schedules : List (κ × Schedule)}
    (hsound : ∀ entry ∈ schedules, entry.2.Sound) (now : Instant) :
    Shift.OnCourse now (Roster.rhythmsOf schedules now)
      { roster := .ofSchedules schedules now } := by
  have htimers := Roster.timers_ofSchedules hsound now
  refine ⟨?rhythms, fun i tag timer hi => ?timers, fun _ hnone => nomatch hnone⟩
  case rhythms =>
    rw [Roster.rhythms, htimers, List.map_map]
    refine (List.map_congr_left fun entry _ => ?_).trans (List.map_id _)
    exact congrArg (Prod.mk entry.1) (Schedule.rhythm_starting now entry.2)
  case timers =>
    refine ⟨?_, fun i t action hnone => nomatch hnone⟩
    rw [htimers, List.getElem?_map] at hi
    obtain ⟨⟨_, rhythm⟩, hentry, hstarting⟩ := Option.map_eq_some_iff.mp hi
    cases hstarting
    obtain ⟨s, hschedule, hrhythm⟩ := Roster.mem_rhythmsOf_iff.mp (List.mem_of_getElem? hentry)
    exact (hsound _ hschedule).pending (Schedule.mem_started_iff.mp hrhythm).1 now

variable {s : Shift κ} {begun : Instant} {rhythms : List (κ × Duration × Option RecordPlan)}

/-- What is known of the launches of a rhythm, once its timer is known to be on course. -/
theorem OnCourse.of_mem (h : s.OnCourse begun rhythms) {tag : κ}
    {rhythm : Duration × Option RecordPlan} (hmem : (tag, rhythm) ∈ rhythms) :
    ∃ timer, (tag, timer) ∈ s.roster.timers ∧ timer.rhythm = rhythm ∧
      timer.OnCourse begun (s.launches tag rhythm.2.isSome) := by
  rw [← h.rhythms] at hmem
  obtain ⟨⟨_, timer⟩, hentry, heq⟩ := List.mem_map.mp hmem
  cases heq
  obtain ⟨i, hi⟩ := List.getElem?_of_mem hentry
  exact ⟨timer, hentry, rfl, h.timers i tag timer hi⟩

theorem OnCourse.isDue (h : s.OnCourse begun rhythms) {tag : κ}
    {rhythm : Duration × Option RecordPlan} (hmem : (tag, rhythm) ∈ rhythms) {i : Nat} {t : Instant}
    {action : Action} (hi : (s.launches tag rhythm.2.isSome)[i]? = some (t, action)) :
    action.IsDue begun (i + 1) t rhythm := by
  obtain ⟨timer, -, hrhythm, htimer⟩ := h.of_mem hmem
  rw [← hrhythm]
  exact htimer.kept i t action hi

theorem OnCourse.key_of_launched (h : s.OnCourse begun rhythms) {tag : κ} {windows : Bool} {i : Nat}
    {t : Instant} {action : Action} (hi : (s.launches tag windows)[i]? = some (t, action)) :
    (tag, windows) ∈ rhythms.map Roster.key := by
  obtain ⟨launch, hmem, hkept⟩ := List.mem_filterMap.mp (List.mem_of_getElem? hi)
  obtain ⟨⟨rfl, rfl⟩, -⟩ := Option.ite_none_right_eq_some.mp hkept
  rw [← h.rhythms]
  exact h.known launch hmem

/-- By the time that is past, all is launched that is over by then: a report when it is due, and a
window one interval later. -/
theorem OnCourse.exists_launched (h : s.OnCourse begun rhythms) {tag : κ}
    {rhythm : Duration × Option RecordPlan} (hmem : (tag, rhythm) ∈ rhythms) {limit : Instant}
    (hpast : s.Past limit) {i : Nat}
    (hover : begun.afterPeriods (i + 1 + rhythm.2.isSome.toNat) rhythm.1 ≤ limit) :
    ∃ t action, (s.launches tag rhythm.2.isSome)[i]? = some (t, action) := by
  obtain ⟨timer, hentry, rfl, htimer⟩ := h.of_mem hmem
  have hnext := Timer.wakesAt_le_of_pending htimer.pending
  have hlater := Nat.lt_of_le_of_lt hover (Nat.lt_of_lt_of_le (hpast _ hentry) hnext)
  have hcount : i < (s.launches tag timer.rhythm.2.isSome).length := by
    have hperiods := Instant.lt_of_afterPeriods_lt hlater
    omega
  exact ⟨_, _, List.getElem?_eq_getElem hcount⟩

end Shift

/-- A roster holds the timers of a schedule, each with its first deadline one interval ahead. There is
no timer for a deadline that no clock can show. -/
structure Schedule.HeldBy {κ : Type} (s : Schedule) (begun : Instant) (tag : κ) (r : Roster κ) :
    Prop where
  report : ∀ deadline, begun.plus? s.reportInterval = some deadline →
    (tag, .report { period := s.reportInterval, deadline }) ∈ r.timers
  record : ∀ plan ∈ s.record, ∀ deadline, begun.plus? plan.interval = some deadline →
    (tag, .record { period := plan.interval, deadline } plan none) ∈ r.timers

/-- What a schedule promises, and has kept so far. -/
structure Schedule.KeptIn {κ : Type} [DecidableEq κ] (s : Schedule) (begun : Instant) (tag : κ)
    (shift : Shift κ) : Prop where
  /-- the `n`-th window has the right length, and lies between the `n`-th deadline and the next -/
  window : ∀ plan ∈ s.record, ∀ i t (action : Action),
    (shift.launches tag true)[i]? = some (t, action) →
      action = .record plan.duration ∧ plan.Fits begun (i + 1) t
  /-- so windows do not overlap -/
  disjoint : ∀ plan ∈ s.record, ∀ (i j : Nat) t t' (action action' : Action), i < j →
    (shift.launches tag true)[i]? = some (t, action) →
    (shift.launches tag true)[j]? = some (t', action') → t.plus plan.duration ≤ t'
  /-- without a plan for windows there are none -/
  unplanned : s.record = none → shift.launches tag true = []
  /-- the `n`-th report is made at the `n`-th deadline -/
  report : ∀ i t (action : Action), (shift.launches tag false)[i]? = some (t, action) →
    action = .report ∧ t = begun.afterPeriods (i + 1) s.reportInterval
  /-- no window is left out: once a time is past, all are launched whose intervals were over then -/
  recorded : ∀ plan ∈ s.record, ∀ limit ≤ Instant.last, shift.Past limit → ∀ i,
    begun.afterPeriods (i + 2) plan.interval ≤ limit →
      ∃ t, (shift.launches tag true)[i]? = some (t, .record plan.duration)
  /-- and no report whose deadline is past -/
  reported : ∀ limit ≤ Instant.last, shift.Past limit → ∀ i,
    begun.afterPeriods (i + 1) s.reportInterval ≤ limit →
      (shift.launches tag false)[i]?
        = some (begun.afterPeriods (i + 1) s.reportInterval, .report)

/-- All timers of schedules that can be run are started. -/
theorem Roster.heldBy_ofSchedules {κ : Type} {schedules : List (κ × Schedule)}
    (hsound : ∀ entry ∈ schedules, entry.2.Sound) {tag : κ} {s : Schedule}
    (hmem : (tag, s) ∈ schedules) (begun : Instant) :
    s.HeldBy begun tag (ofSchedules schedules begun) := by
  refine ⟨fun deadline hfirst => ?report, fun plan hplan deadline hfirst => ?record⟩
  case report =>
    have htimer := mem_ofSchedules hsound hmem (Schedule.mem_rhythms_iff.mpr (.inr rfl)) hfirst
    rwa [Schedule.starting, (Instant.plus?_eq_some_iff.mp hfirst).1] at htimer
  case record =>
    have htimer := mem_ofSchedules hsound hmem
      (Schedule.mem_rhythms_iff.mpr (.inl ⟨plan, hplan, rfl⟩)) hfirst
    rwa [Schedule.starting, (Instant.plus?_eq_some_iff.mp hfirst).1] at htimer

namespace Shift

variable {κ : Type} [DecidableEq κ] {schedules : List (κ × Schedule)} {begun : Instant}
  {shift : Shift κ} {tag : κ} {s : Schedule}

/-- Whatever is launched under the tag of a schedule is due by it. -/
theorem OnCourse.isDue_of_launched (h : shift.OnCourse begun (Roster.rhythmsOf schedules begun))
    (htags : (schedules.map Prod.fst).Nodup) (hmem : (tag, s) ∈ schedules) {windows : Bool} {i : Nat}
    {t : Instant} {action : Action} (hi : (shift.launches tag windows)[i]? = some (t, action)) :
    ∃ rhythm ∈ s.rhythms, rhythm.2.isSome = windows ∧ action.IsDue begun (i + 1) t rhythm := by
  obtain ⟨rhythm, hstarted, rfl⟩ := Roster.exists_started htags hmem (h.key_of_launched hi)
  have hrhythm := Roster.mem_rhythmsOf_iff.mpr ⟨s, hmem, hstarted⟩
  exact ⟨rhythm, (Schedule.mem_started_iff.mp hstarted).1, rfl, h.isDue hrhythm hi⟩

/-- Schedules that can be run are kept, if their timers are woken on time. -/
theorem keptIn (htags : (schedules.map Prod.fst).Nodup)
    (hsound : ∀ entry ∈ schedules, entry.2.Sound)
    (hrun : Relation.ReflTransGen Step { roster := .ofSchedules schedules begun } shift)
    (hmem : (tag, s) ∈ schedules) : s.KeptIn begun tag shift := by
  have hcourse := (onCourse_ofSchedules hsound begun).run (Roster.nodup_keys htags begun) hrun
  have hreport : (s.reportInterval, none) ∈ s.rhythms := Schedule.mem_rhythms_iff.mpr (.inr rfl)
  have hrecord : ∀ plan ∈ s.record, (plan.interval, some plan) ∈ s.rhythms := fun plan hplan =>
    Schedule.mem_rhythms_iff.mpr (.inl ⟨plan, hplan, rfl⟩)
  have hwindow : ∀ plan ∈ s.record, ∀ i t (action : Action),
      (shift.launches tag true)[i]? = some (t, action) →
        action = .record plan.duration ∧ plan.Fits begun (i + 1) t := by
    intro plan hplan i t action hi
    obtain ⟨rhythm, hrhythm, hkind, hdue⟩ := hcourse.isDue_of_launched htags hmem hi
    obtain ⟨other, hother, rfl⟩ | rfl := Schedule.mem_rhythms_iff.mp hrhythm
    · cases Option.mem_unique hother hplan
      exact hdue
    · cases hkind
  have hreported : ∀ i t (action : Action), (shift.launches tag false)[i]? = some (t, action) →
      action = .report ∧ t = begun.afterPeriods (i + 1) s.reportInterval := by
    intro i t action hi
    obtain ⟨rhythm, hrhythm, hkind, hdue⟩ := hcourse.isDue_of_launched htags hmem hi
    obtain ⟨other, -, rfl⟩ | rfl := Schedule.mem_rhythms_iff.mp hrhythm
    · cases hkind
    · exact hdue
  refine ⟨hwindow, ?disjoint, ?unplanned, hreported, ?recorded, ?reported⟩
  case disjoint =>
    intro plan hplan i j t t' action action' hij hi hj
    obtain ⟨-, hfirst⟩ := hwindow plan hplan i t action hi
    obtain ⟨-, hsecond⟩ := hwindow plan hplan j t' action' hj
    have hbetween := begun.afterPeriods_mono (Nat.succ_le_succ hij) plan.interval
    exact Nat.le_trans hfirst.notLate (Nat.le_trans hbetween hsecond.notEarly)
  case unplanned =>
    intro hnone
    refine List.eq_nil_iff_forall_not_mem.mpr fun launch hlaunch => ?_
    obtain ⟨i, hi⟩ := List.getElem?_of_mem hlaunch
    obtain ⟨rhythm, hrhythm, hkind, -⟩ := hcourse.isDue_of_launched htags hmem hi
    obtain ⟨plan, hplan, rfl⟩ | rfl := Schedule.mem_rhythms_iff.mp hrhythm
    · rw [hnone] at hplan
      cases hplan
    · cases hkind
  case recorded =>
    intro plan hplan limit hlimit hpast i hi
    have hstarted := Roster.mem_rhythmsOf_of_due hmem (hrecord plan hplan) hlimit hi
    obtain ⟨t, action, hlaunched⟩ := hcourse.exists_launched hstarted hpast hi
    obtain ⟨rfl, -⟩ := hwindow plan hplan i t action hlaunched
    exact ⟨t, hlaunched⟩
  case reported =>
    intro limit hlimit hpast i hi
    have hstarted := Roster.mem_rhythmsOf_of_due hmem hreport hlimit hi
    obtain ⟨t, action, hlaunched⟩ := hcourse.exists_launched hstarted hpast hi
    obtain ⟨rfl, rfl⟩ := hreported i t action hlaunched
    exact hlaunched

/-- As long as a time is not past, timers go on being woken, and so it will be past. -/
theorem gets_past_schedules (htags : (schedules.map Prod.fst).Nodup)
    (hsound : ∀ entry ∈ schedules, entry.2.Sound) {shifts : Nat → Shift κ}
    (hstart : shifts 0 = { roster := .ofSchedules schedules begun }) {limit : Instant}
    (hnext : ∀ n, (shifts n).Past limit ∨ Next (shifts n) (shifts (n + 1))) :
    ∃ n, (shifts n).Past limit := by
  have hcourse : (shifts 0).OnCourse begun (Roster.rhythmsOf schedules begun) := by
    rw [hstart]
    exact onCourse_ofSchedules hsound begun
  exact hcourse.gets_past (Roster.nodup_keys htags begun) (Roster.periods hsound begun) hnext

end Shift

/-- Windows that take up a fifth of their interval, and reports that have nothing to do with it. -/
def unevenSchedule : Schedule :=
  { name := "uneven", reportInterval := .ofSeconds 15
    record := some { interval := .ofSeconds 10, duration := .ofSeconds 2 } }

example :
    let afterSeconds (n : Nat) : Instant := Instant.start.plus (.ofSeconds n)
    ((Roster.ofSchedules [((), unevenSchedule)] .start).runUntil (.ofSeconds 7) (afterSeconds 41)
        10).1
      = [(afterSeconds 15, (), .report), (afterSeconds 17, (), .record (.ofSeconds 2)),
          (afterSeconds 27, (), .record (.ofSeconds 2)), (afterSeconds 30, (), .report),
          (afterSeconds 37, (), .record (.ofSeconds 2))] := by
  decide +kernel

end Telemetry
