import Mathlib.Tactic.ByContra
import Telemetry.Schedule

/-!
# Timers that are woken on time

A timer never waits for what it has launched. So if it is woken whenever it wants to be, it keeps its
pace for ever (`Timer.OnCourse`): its `n`-th deadline lies `n` periods after the start. A report is
launched at each deadline, and a window after a delay that leaves room for it before the next
deadline (`RecordPlan.Sound.fits`), whatever the delay is.
-/

namespace Telemetry

/-! ## Deadlines -/

/-- The instant some periods later. -/
def Instant.afterPeriods (t : Instant) (n : Nat) (period : Duration) : Instant :=
  ⟨t.nanos + n * period.nanos⟩

theorem Instant.plus_eq_afterPeriods (t : Instant) (period : Duration) :
    t.plus period = t.afterPeriods 1 period := by
  rw [afterPeriods, Nat.one_mul]
  rfl

theorem Instant.afterPeriods_succ (t : Instant) (n : Nat) (period : Duration) :
    t.afterPeriods (n + 1) period = (t.afterPeriods n period).plus period := by
  simp only [afterPeriods, plus, Nat.succ_mul, Nat.add_assoc]

theorem Instant.lt_of_afterPeriods_lt {t : Instant} {m n : Nat} {period : Duration}
    (h : t.afterPeriods m period < t.afterPeriods n period) : m < n := by
  by_contra hle
  have hmul := Nat.mul_le_mul_right period.nanos (Nat.le_of_not_lt hle)
  have hlt : t.nanos + m * period.nanos < t.nanos + n * period.nanos := h
  omega

theorem Instant.afterPeriods_mono (t : Instant) {m n : Nat} (h : m ≤ n) (period : Duration) :
    t.afterPeriods m period ≤ t.afterPeriods n period :=
  Nat.add_le_add_left (Nat.mul_le_mul_right _ h) _

namespace Ticker

/-- The ticker one deadline later. -/
def next (t : Ticker) : Ticker := { t with deadline := t.deadline.plus t.period }

theorem deadline_next {t : Ticker} {begun : Instant} {n : Nat}
    (h : t.deadline = begun.afterPeriods n t.period) :
    t.next.deadline = begun.afterPeriods (n + 1) t.next.period := by
  rw [next, h, ← Instant.afterPeriods_succ]

end Ticker

namespace RecordPlan

/-- A plan can be run: it has an interval, and a window fits into it. -/
structure Sound (r : RecordPlan) : Prop where
  interval : r.interval.isZero = false
  duration : r.duration ≤ r.interval

/-- A window that is launched lies within the interval that begins some intervals after a start. -/
structure Fits (r : RecordPlan) (begun : Instant) (n : Nat) (launch : Instant) : Prop where
  notEarly : begun.afterPeriods n r.interval ≤ launch
  notLate : launch.plus r.duration ≤ begun.afterPeriods (n + 1) r.interval
  /-- the next window cannot even touch it, unless it takes all of the interval -/
  apart : r.duration < r.interval →
    launch.plus r.duration < begun.afterPeriods (n + 1) r.interval

theorem allows_zero (r : RecordPlan) : r.allows .zero := by
  rw [allows]
  split
  · rfl
  · exact Nat.pos_of_ne_zero ‹_›

/-- After a delay that may be drawn, what is left of the interval is enough for a window. -/
theorem Sound.fits {r : RecordPlan} (h : r.Sound) {delay : Duration} (hdelay : r.allows delay)
    (begun : Instant) (n : Nat) : r.Fits begun n ((begun.afterPeriods n r.interval).plus delay) := by
  have hduration : r.duration.nanos ≤ r.interval.nanos := h.duration
  have hchoices : r.choices ≤ r.interval.nanos - r.duration.nanos := Nat.min_le_left _ _
  -- the bound of the delays is not among them, but if it is zero then so is the delay
  have hdrawn : delay.nanos = 0 ∨ delay.nanos + r.duration.nanos < r.interval.nanos := by
    rw [allows] at hdelay
    split at hdelay
    · exact .inl (congrArg Duration.nanos hdelay)
    · exact .inr (by omega)
  have hnext := congrArg Instant.nanos (begun.afterPeriods_succ n r.interval)
  simp only [Instant.plus] at hnext
  refine ⟨Nat.le_add_right _ _, ?notLate, fun hlt => ?apart⟩
  case notLate =>
    change _ + delay.nanos + r.duration.nanos ≤ _
    omega
  case apart =>
    have hlt' : r.duration.nanos < r.interval.nanos := hlt
    change _ + delay.nanos + r.duration.nanos < _
    omega

end RecordPlan

namespace Timer

/-- What never changes about a timer: its period, and the plan of its windows if it records any. -/
def rhythm : Timer → Duration × Option RecordPlan
  | report ticker => (ticker.period, none)
  | record ticker plan _ => (ticker.period, some plan)

/-- Whether a delay may be drawn when a timer is woken. It is asked for at the deadlines of windows.
-/
def Draws (delay : Duration) : Timer → Prop
  | record _ plan none => plan.allows delay
  | report _ | record _ _ (some _) => True

/-- What a timer is about to do, after it has launched a number of things. -/
def Pending (begun : Instant) (n : Nat) : Timer → Prop
  | report ticker => ticker.deadline = begun.afterPeriods (n + 1) ticker.period
  | record ticker plan none =>
    plan.Sound ∧ plan.interval = ticker.period ∧
      ticker.deadline = begun.afterPeriods (n + 1) ticker.period
  | record ticker plan (some launch) =>
    plan.Sound ∧ plan.interval = ticker.period ∧
      ticker.deadline = begun.afterPeriods (n + 2) ticker.period ∧
      plan.Fits begun (n + 1) launch

end Timer

/-- Whether an action records a window. -/
def Action.isRecord : Action → Bool
  | .record _ => true
  | .report => false

/-- What a timer of some rhythm is to do when it does something for the `n`-th time. -/
def Action.IsDue (begun : Instant) (n : Nat) (launch : Instant) (action : Action) :
    Duration × Option RecordPlan → Prop
  | (period, none) => action = .report ∧ launch = begun.afterPeriods n period
  | (_, some plan) => action = .record plan.duration ∧ plan.Fits begun n launch

namespace Timer

/-- A timer has kept its pace since it was started, and has launched all that was due. -/
structure OnCourse (begun : Instant) (launched : List (Instant × Action)) (timer : Timer) : Prop where
  pending : timer.Pending begun launched.length
  kept : ∀ i t (action : Action), launched[i]? = some (t, action) →
    action.IsDue begun (i + 1) t timer.rhythm

@[simp] theorem rhythm_wake (now : Instant) (delay : Duration) (timer : Timer) :
    (timer.wake now delay).2.rhythm = timer.rhythm := by
  cases timer with
  | report ticker => simp [wake, rhythm]
  | record ticker plan launch =>
    cases launch with
    | some launch => rfl
    | none =>
      rw [wake]
      split <;> simp [rhythm]

theorem wake_report (ticker : Ticker) (delay : Duration) :
    (report ticker).wake ticker.deadline delay = (some .report, report ticker.next) := by
  rw [wake, Ticker.fire_deadline]
  rfl

theorem wake_deadline (ticker : Ticker) (plan : RecordPlan) (delay : Duration) :
    (record ticker plan none).wake ticker.deadline delay
      = if delay.isZero then (some (.record plan.duration), record ticker.next plan none)
        else (none, record ticker.next plan (some (ticker.deadline.plus delay))) := by
  rw [wake, Ticker.fire_deadline]
  rfl

/-- What is done when a timer is woken on time. -/
theorem pending_wake {begun : Instant} {n : Nat} {timer : Timer} (h : timer.Pending begun n)
    {delay : Duration} (hdelay : timer.Draws delay) :
    match timer.wake timer.wakesAt delay with
    | (some action, timer') =>
      action.IsDue begun (n + 1) timer.wakesAt timer.rhythm ∧ timer'.Pending begun (n + 1)
    | (none, timer') => timer'.Pending begun n := by
  cases timer with
  | report ticker =>
    have hdeadline : ticker.deadline = begun.afterPeriods (n + 1) ticker.period := h
    rw [wakesAt, wake_report]
    exact ⟨⟨rfl, hdeadline⟩, Ticker.deadline_next hdeadline⟩
  | record ticker plan launch =>
    cases launch with
    | some launch =>
      obtain ⟨hsound, hperiod, hdeadline, hfits⟩ := h
      exact ⟨⟨rfl, hfits⟩, hsound, hperiod, hdeadline⟩
    | none =>
      obtain ⟨hsound, hperiod, hdeadline⟩ := h
      have hnext := Ticker.deadline_next hdeadline
      have hfits := hsound.fits hdelay begun (n + 1)
      rw [hperiod, ← hdeadline] at hfits
      rw [wakesAt, wake_deadline]
      by_cases hzero : delay.isZero
      · have hnow : ticker.deadline.plus delay = ticker.deadline := by
          have : delay.nanos = 0 := beq_iff_eq.mp hzero
          simp [Instant.plus, this]
        rw [hnow] at hfits
        rw [if_pos hzero]
        exact ⟨⟨rfl, hfits⟩, hsound, hperiod, hnext⟩
      · rw [if_neg hzero]
        exact ⟨hsound, hperiod, hnext, hfits⟩

/-- When a timer is woken next, there has not been much time for anything else to be launched. -/
theorem wakesAt_le_of_pending {begun : Instant} {n : Nat} {timer : Timer}
    (h : timer.Pending begun n) :
    timer.wakesAt ≤ begun.afterPeriods (n + 1 + timer.rhythm.2.isSome.toNat) timer.rhythm.1 := by
  cases timer with
  | report ticker => exact Nat.le_of_eq (congrArg Instant.nanos h)
  | record ticker plan launch =>
    cases launch with
    | none =>
      obtain ⟨-, -, hdeadline⟩ := h
      rw [rhythm, wakesAt, hdeadline]
      exact begun.afterPeriods_mono (Nat.le_succ _) _
    | some launch =>
      obtain ⟨-, hperiod, -, hfits⟩ := h
      have hlate := hfits.notLate
      rw [hperiod] at hlate
      exact Nat.le_trans (Nat.le_add_right _ _) hlate

/-- A timer that was woken wants to be woken again, but not at the same time. -/
theorem wakesAt_lt_wake {begun : Instant} {n : Nat} {timer : Timer} (h : timer.Pending begun n)
    (hperiod : timer.rhythm.1.isZero = false) (delay : Duration) :
    timer.wakesAt < (timer.wake timer.wakesAt delay).2.wakesAt := by
  have hpositive : 0 < timer.rhythm.1.nanos := Nat.pos_of_ne_zero (ne_of_beq_false hperiod)
  cases timer with
  | report ticker =>
    rw [wakesAt, wake_report]
    exact Nat.lt_add_of_pos_right hpositive
  | record ticker plan launch =>
    cases launch with
    | none =>
      rw [wakesAt, wake_deadline]
      by_cases hzero : delay.isZero
      · rw [if_pos hzero]
        exact Nat.lt_add_of_pos_right hpositive
      · rw [if_neg hzero]
        exact Nat.lt_add_of_pos_right (Nat.pos_of_ne_zero fun h => hzero (beq_iff_eq.mpr h))
    | some launch =>
      obtain ⟨-, hinterval, hdeadline, hfits⟩ := h
      -- the window begins before the next deadline, as an empty window does not take the interval
      have hlate := hfits.notLate
      rw [hinterval, ← hdeadline] at hlate
      have hlate' : launch.nanos + plan.duration.nanos ≤ ticker.deadline.nanos := hlate
      change launch.nanos < ticker.deadline.nanos
      rcases Nat.eq_zero_or_pos plan.duration.nanos with hnone | hsome
      · have hlt := hfits.apart (by
          change plan.duration.nanos < plan.interval.nanos
          rw [hnone, hinterval]
          exact hpositive)
        rw [hinterval, ← hdeadline] at hlt
        exact Nat.lt_of_le_of_lt (Nat.le_add_right _ _) hlt
      · omega

/-- A timer that is woken on time stays on its course. -/
theorem OnCourse.wake {begun : Instant} {launched : List (Instant × Action)} {timer : Timer}
    (h : timer.OnCourse begun launched) {delay : Duration} (hdelay : timer.Draws delay) :
    (timer.wake timer.wakesAt delay).2.OnCourse begun
      (launched ++ ((timer.wake timer.wakesAt delay).1.map (timer.wakesAt, ·)).toList) := by
  have hwake := pending_wake h.pending hdelay
  have hrhythm := rhythm_wake timer.wakesAt delay timer
  generalize timer.wake timer.wakesAt delay = outcome at hwake hrhythm ⊢
  obtain ⟨done, timer'⟩ := outcome
  cases done with
  | none =>
    simp only [Option.map_none, Option.toList_none, List.append_nil]
    exact ⟨hwake, fun i t action hi => hrhythm ▸ h.kept i t action hi⟩
  | some action =>
    obtain ⟨hdue, hpending⟩ := hwake
    simp only [Option.map_some, Option.toList_some]
    refine ⟨by rwa [List.length_append], fun i t other hi => ?_⟩
    simp only [] at hrhythm
    rw [hrhythm]
    rcases Nat.lt_trichotomy i launched.length with hlt | heq | hgt
    · rw [List.getElem?_append_left hlt] at hi
      exact h.kept i t other hi
    · subst heq
      simp at hi
      obtain ⟨rfl, rfl⟩ := hi
      exact hdue
    · rw [List.getElem?_eq_none (by simp; omega)] at hi
      cases hi

/-- The action of a timer is of the kind of the timer. -/
theorem isRecord_of_wake {now : Instant} {delay : Duration} {timer : Timer} {action : Action}
    (h : (timer.wake now delay).1 = some action) : action.isRecord = timer.rhythm.2.isSome := by
  cases timer with
  | report ticker =>
    cases h
    rfl
  | record ticker plan launch =>
    cases launch with
    | some launch =>
      cases h
      rfl
    | none =>
      rw [wake] at h
      split at h <;> cases h
      rfl

end Timer

end Telemetry
