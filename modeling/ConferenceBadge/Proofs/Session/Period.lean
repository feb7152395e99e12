import ConferenceBadge.Proofs.Badge.Ticks
import ConferenceBadge.Proofs.Session.Course
import Mathlib.Algebra.Order.Floor.Div

/-!
The period of a session's ticks. Every boot starts the ticks at the period of the options, or at the default one
where that is too short (`Options.tickPeriod`), and nothing but a boot changes it. So the period is the same in every
state that a session comes to (`Course.proper`).
-/
namespace ConferenceBadge

namespace Emulator

theorem takeSleep_period (e : Emulator) : e.takeSleep.state.scheduler.period = e.scheduler.period := by
  unfold takeSleep
  split <;> rfl

/-- A request for sleep that is taken is not there any more. -/
theorem takeSleep_taken (e : Emulator) : e.takeSleep.state.shared.body.sleep = none := by
  unfold takeSleep
  split
  · next none => exact none
  · rfl

end Emulator

namespace Console

/-- The period at which a badge with these options ticks. -/
def Options.tickPeriod (o : Options) : Duration := (Emulator.startTicks o.period).state.period

theorem Options.lasting (o : Options) : Scheduler.shortestPeriod ≤ o.tickPeriod :=
  (Emulator.startTicks_ticks o.period).1.lasting

theorem Options.tickPeriod_pos (o : Options) : 0 < o.tickPeriod.nanos :=
  Nat.lt_of_lt_of_le (by decide : 0 < Scheduler.shortestPeriod.nanos) o.lasting

/-- How many periods cover a time. -/
def periodsIn (d period : Duration) : Nat := d.nanos ⌈/⌉ period.nanos

theorem periodsIn_le {period : Duration} (positive : 0 < period.nanos) {d : Duration} {n : Nat} :
    periodsIn d period ≤ n ↔ d.nanos ≤ n * period.nanos := by
  rw [periodsIn, ceilDiv_le_iff_le_smul positive, smul_eq_mul, Nat.mul_comm]

theorem lt_periodsIn {period : Duration} (positive : 0 < period.nanos) {d : Duration} {n : Nat} :
    n < periodsIn d period ↔ n * period.nanos < d.nanos := by
  rw [← Nat.not_le, periodsIn_le positive, Nat.not_le]

/-- Periods cover a time, and less than one of them is more than it. -/
theorem periodsIn_covers {period : Duration} (positive : 0 < period.nanos) (d : Duration) :
    d.nanos ≤ periodsIn d period * period.nanos ∧ periodsIn d period * period.nanos < d.nanos + period.nanos := by
  refine ⟨(periodsIn_le positive).mp (Nat.le_refl _), ?_⟩
  cases count : periodsIn d period with
  | zero => omega
  | succ n =>
    have short : n * period.nanos < d.nanos := (lt_periodsIn positive).mp (by omega)
    rw [Nat.succ_mul]
    omega

/-- Periods that end with a time are those of the time and those of what follows it. -/
theorem periodsIn_add {period : Duration} (positive : 0 < period.nanos) {d first rest : Duration}
    (sum : d.nanos = rest.nanos + first.nanos) (whole : period.nanos ∣ first.nanos) :
    periodsIn d period = periodsIn first period + periodsIn rest period := by
  obtain ⟨count, same⟩ := whole
  have covered (n : Nat) : (n + period.nanos * count) ⌈/⌉ period.nanos = n ⌈/⌉ period.nanos + count := by
    rw [Nat.ceilDiv_eq_add_pred_div, Nat.ceilDiv_eq_add_pred_div, ← Nat.add_mul_div_left _ _ positive]
    congr 1
    omega
  have exactly := covered 0
  rw [Nat.zero_add, zero_ceilDiv, Nat.zero_add] at exactly
  rw [periodsIn, periodsIn, periodsIn, sum, same, covered, exactly, Nat.add_comm]

namespace Session

/-- Awake or asleep, a period that passes is added to the session's time. -/
theorem elapse_clock (s : Session) (around : Surroundings) (period : Duration) :
    (s.elapse around period).state.clock = s.clock + period := by
  simp only [elapse]
  split
  · next asleep sleeping =>
    simp only [sleepOn]
    split
    · rfl
    · split <;> rfl
  · simp only [stayOn]
    split <;> rfl

/-- What is known of every state that a session with these options comes to. -/
structure Proper (options : Options) (s : Session) : Prop where
  same : s.options = options
  period : s.badge.scheduler.period = options.tickPeriod
  reached : Emulator.Reached options.power s.badge
  unasked : s.badge.shared.body.sleep = none

theorem proper_start (options : Options) (transcript : Option Transcript) (around : Surroundings) :
    Proper options (start options transcript around).state :=
  ⟨rfl, Scheduler.period_of_pace (Emulator.pace_boot ..), .booted .., rfl⟩

/-- Every step of a session keeps it proper. -/
theorem Course.proper {earlier : List Moment} {first s : Session} (course : Course first earlier s)
    (begun : Proper first.options first) : Proper first.options s := by
  refine ⟨course.kept.1, ?_, course.reached begun.reached, ?_⟩
  · induction course with
    | begun => exact begun.period
    | @restarted moments s earlier asleep sleeping around ih =>
      rw [← earlier.kept.1]
      exact Scheduler.period_of_pace (Emulator.pace_boot ..)
    | @stayed moments s earlier awake around ih =>
      rw [(stayOn_frame s around).1, Emulator.takeSleep_period]
      exact (Scheduler.period_of_pace (s.badge.pace_tick around.now)).trans ih
    | @pressed moments s earlier awake ih => exact (Scheduler.period_of_pace s.badge.pace_press).trans ih
    | noted earlier clock transcript ih => exact ih
    | dozed earlier sleeping left ih => exact ih
    | tuned earlier inRange ih => exact ih
    | drawn earlier awake now ih => exact ih
  · induction course with
    | begun => exact begun.unasked
    | @restarted moments s earlier asleep sleeping around ih => rfl
    | @stayed moments s earlier awake around ih =>
      rw [(stayOn_frame s around).1]
      exact Emulator.takeSleep_taken _
    | @drawn moments s earlier awake now ih =>
      exact (SharedState.drawScreen_frame s.badge.shared.body .home now).1.trans ih
    | pressed earlier awake ih => exact ih
    | noted earlier clock transcript ih => exact ih
    | dozed earlier sleeping left ih => exact ih
    | tuned earlier inRange ih => exact ih

end Session
end Console
end ConferenceBadge
