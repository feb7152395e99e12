import ConferenceBadge.Proofs.Badge.Ticks
import ConferenceBadge.Proofs.Scheduler.Chronicle
import ConferenceBadge.Proofs.Scheduler.FiringTime

/-!
The timer of the board. It finds the period of the ticks in whole milliseconds, and in no more of them than can
be published. So it waits as long as the scheduler counts exactly where the period fits this form, and less
otherwise; it waits for nothing while the scheduler is stopped (`Scheduler.timer_waits_published`).
-/
namespace ConferenceBadge

namespace Board.PublishedPeriod

/-- The time that the timer waits for a period: its whole milliseconds, as far as they can be published. -/
def waited (period : Duration) : Duration := .ofMillis (min period.millis most)

/-- A period fits if it is of whole milliseconds, and of no more than can be published. -/
def Fits (period : Duration) : Prop := 1000000 ∣ period.nanos ∧ period.millis ≤ most

instance (period : Duration) : Decidable (Fits period) := inferInstanceAs (Decidable (_ ∧ _))

theorem waited_le (period : Duration) : waited period ≤ period := by
  simp only [Duration.le_iff, waited, Duration.ofMillis, Duration.nanos_ofNanos, Duration.millis]
  omega

theorem waited_eq_iff {period : Duration} : waited period = period ↔ Fits period := by
  have bound := period.nanos_le
  have nanos : (waited period).nanos = min (min (period.nanos / 1000000) most * 1000000) Duration.maxNanos := rfl
  simp only [Fits, Duration.millis]
  constructor
  · intro same
    rw [same] at nanos
    omega
  · rintro ⟨whole, few⟩
    apply Duration.ext
    omega

/-- What is published of a period that is long enough for ticks is read as the time that is waited for it. -/
theorem period?_ofPeriod {period : Duration} (lasting : Scheduler.shortestPeriod ≤ period) :
    (ofPeriod period).period? = some (waited period) := by
  have positive : 1 ≤ min period.millis most := by
    have least : 1000000 ≤ period.nanos := lasting
    simp only [Duration.millis, most]
    omega
  have count : (ofPeriod period).millis.toNat = min period.millis most := by
    rw [ofPeriod, Nat.max_eq_left positive]
    exact UInt32.toNat_ofNat_of_lt' (by simp only [most, UInt32.size]; omega)
  have running : (ofPeriod period).millis ≠ 0 := by
    intro stopped
    rw [stopped] at count
    exact absurd count.symm (Nat.ne_of_gt positive)
  rw [period?, if_neg running, count, waited]

end Board.PublishedPeriod

namespace Scheduler

open Board (PublishedPeriod)
open Board.PublishedPeriod (waited waited_le waited_eq_iff period?_ofPeriod Fits)

variable {κ τ : Type}

/-- The period of the ticks, while there are any. -/
def period? (s : Scheduler κ τ) : Option Duration := if s.active then some s.period else none

/-- The timer waits as long as the scheduler counts for a tick. -/
def OnTime (s : Scheduler κ PublishedPeriod) : Prop := s.timer.period? = s.period?

instance (s : Scheduler κ PublishedPeriod) : Decidable s.OnTime :=
  inferInstanceAs (Decidable (s.timer.period? = s.period?))

/-- The period of the ticks is published while there are any, and is not too short. -/
structure Published (s : Scheduler κ PublishedPeriod) : Prop where
  lasting : ∀ period ∈ s.period?, shortestPeriod ≤ period
  timer : s.timer = .ofPeriod? s.period?

namespace Published

variable {s : Scheduler κ PublishedPeriod}

/-- The timer waits what is published of the period, and nothing while there are no ticks. -/
theorem waits (published : s.Published) : s.timer.period? = s.period?.map waited := by
  rw [published.timer]
  cases ticks : s.period? with
  | none => rfl
  | some period => exact period?_ofPeriod (published.lasting period ticks)

theorem onTime_iff (published : s.Published) : s.OnTime ↔ ∀ period ∈ s.period?, Fits period := by
  rw [OnTime, published.waits]
  cases s.period? with
  | none => simp
  | some period => simp [waited_eq_iff]

theorem of_pace {after : Scheduler κ PublishedPeriod} (published : s.Published) (same : after.pace = s.pace) :
    after.Published := by
  have ticks : after.period? = s.period? := by
    rw [period?, period?, active_of_pace same, period_of_pace same]
  have timer : after.timer = s.timer := congrArg Prod.fst same
  exact ⟨ticks ▸ published.lasting, by rw [timer, ticks, published.timer]⟩

/-- Ticks that are started are published, whatever was published before. -/
theorem of_start (s : Scheduler κ PublishedPeriod) {period : Duration} (long : shortestPeriod ≤ period) :
    (s.start period).state.Published := by
  rw [Scheduler.start, if_neg (Duration.not_lt.mpr long)]
  exact ⟨fun _ same => Option.some.inj same ▸ long, rfl⟩

theorem start (published : s.Published) (period : Duration) : (s.start period).state.Published := by
  by_cases short : period < shortestPeriod
  · rw [Scheduler.start, if_pos short]
    exact published
  · exact of_start s (Duration.not_lt.mp short)

theorem of_stop (s : Scheduler κ PublishedPeriod) : s.stop.state.Published := ⟨nofun, rfl⟩

variable [ToString κ]

theorem act (published : s.Published) (a : Action κ) : (s.act a).Published := by
  cases a with
  | start period => exact published.start period
  | stop => exact .of_stop s
  | ask q => exact published.of_pace (pace_registry q s)
  | tick code shared => exact published.of_pace (pace_tick s code shared)

theorem run (published : s.Published) (actions : List (Action κ)) : (s.run actions).Published := by
  induction actions generalizing s with
  | nil => exact published
  | cons a rest ih => exact ih (published.act a)

end Published

theorem published_empty (capacity : Nat) : (empty capacity .stopped : Scheduler κ PublishedPeriod).Published :=
  ⟨nofun, rfl⟩

/-- What the timer waits for the ticks of an action: one period or none. -/
def wait (s : Scheduler κ PublishedPeriod) : Action κ → List Duration
  | .start _ | .stop | .ask _ => []
  | .tick .. => s.timer.period?.toList

theorem Published.wait_eq {s : Scheduler κ PublishedPeriod} (published : s.Published) (a : Action κ) :
    s.wait a = (s.lapse a).map waited := by
  cases a with
  | start period => rfl
  | stop => rfl
  | ask q => rfl
  | tick code shared =>
    rw [wait, published.waits, lapse, period?]
    split <;> rfl

variable [ToString κ]

/-- What the timer waits for the ticks of a run. -/
def waits : Scheduler κ PublishedPeriod → List (Action κ) → List Duration
  | _, [] => []
  | s, a :: rest => s.wait a ++ (s.act a).waits rest

/-- The timer waits once for each tick of a run that is processed, and for no other. -/
theorem Published.waits_eq {s : Scheduler κ PublishedPeriod} (published : s.Published) (actions : List (Action κ)) :
    s.waits actions = (s.periods actions).map waited := by
  induction actions generalizing s with
  | nil => rfl
  | cons a rest ih => rw [Scheduler.waits, periods, List.map_append, published.wait_eq, ih (published.act a)]

/-- So much time is added in a run to the uptime, and to the position of every task that is left alone and
is not due by then. -/
structure Advances [TickTimer τ] (s : Scheduler κ τ) (actions : List (Action κ)) (time : Duration) : Prop where
  uptime : (s.run actions).uptime = s.uptime + time
  tasks : ∀ place t, s.tasks[place]? = some t → s.follow place actions ≠ .changed → t.position + time ≤ t.target →
    ∃ there, s.follow place actions = .registered there ∧ (s.run actions).tasks[there]? = some (t.aged time)

theorem advances_periods [TickTimer τ] (s : Scheduler κ τ) (actions : List (Action κ)) :
    s.Advances actions (.total (s.periods actions)) :=
  ⟨s.uptime_periods actions, fun _ _ here alone within => follow_early here alone within⟩

/-- While a scheduler is stopped its timer waits for nothing; while it ticks, the timer waits the whole
milliseconds of the period, as far as they can be published: never more than the period, and on time exactly
where the period fits. In a run the timer waits so for every tick that is processed, and for no other. The
uptime and the tasks that wait advance by the periods, which is no less than what the timer waits, and is what
it waits where all the periods fit. -/
theorem timer_waits_published (capacity : Nat) (earlier later : List (Action κ)) :
    let s := (empty capacity .stopped : Scheduler κ PublishedPeriod).run earlier
    (s.active = false → s.timer.period? = none) ∧
    (s.active = true →
      s.timer.period? = some (waited s.period) ∧ waited s.period ≤ s.period ∧ (s.OnTime ↔ Fits s.period)) ∧
    s.waits later = (s.periods later).map waited ∧
    s.Advances later (.total (s.periods later)) ∧
    .total (s.waits later) ≤ Duration.total (s.periods later) ∧
    ((∀ period ∈ s.periods later, Fits period) → s.Advances later (.total (s.waits later))) := by
  intro s
  have published : s.Published := (published_empty capacity).run earlier
  have waits := published.waits_eq later
  refine ⟨?_, ?_, waits, s.advances_periods later, ?_, ?_⟩
  · intro stopped
    rw [published.waits, period?, stopped]
    rfl
  · intro active
    have ticks : s.period? = some s.period := by rw [period?, if_pos active]
    refine ⟨?_, waited_le s.period, ?_⟩
    · rw [published.waits, ticks]
      rfl
    · rw [published.onTime_iff, ticks]
      simp
  · rw [waits]
    exact Duration.total_map_le waited_le _
  · intro exactly
    have same : s.waits later = s.periods later := by
      rw [waits]
      exact (List.map_congr_left fun period member => waited_eq_iff.mpr (exactly period member)).trans (List.map_id _)
    rw [same]
    exact s.advances_periods later

/-- The timer waits 10 ms, then the ticks pause, and then it waits 20 ms; so much is added to the uptime and to
the position of a task that waits. A period that is too short changes nothing. -/
theorem timer_waits_published_pausing :
    let earlier : List (Action Nat) :=
      [.start (.ofMillis 10), .start (.ofNanos 999999), .ask (.add 0 (.ofMillis 40) .visible)]
    let later : List (Action Nat) := pausing ++ [.tick restless ()]
    let s := (empty 4 .stopped : Scheduler Nat PublishedPeriod).run earlier
    s.active = true ∧ Fits s.period ∧ s.OnTime ∧ (∀ period ∈ s.periods later, Fits period) ∧
      s.waits later = [.ofMillis 10, .ofMillis 20] ∧ s.Advances later (.ofMillis 30) ∧
      (s.run later).tasks.map (·.position) = [.ofMillis 30] := by
  intro earlier later s
  have periods : s.periods later = [.ofMillis 10, .ofMillis 20] := rfl
  have fits : ∀ period ∈ s.periods later, Fits period := by
    rw [periods]
    decide
  obtain ⟨-, running, waits, -, -, exactly⟩ := timer_waits_published 4 earlier later
  obtain ⟨-, -, onTime⟩ := running rfl
  have waited : s.waits later = [.ofMillis 10, .ofMillis 20] := by
    rw [waits, periods]
    decide
  have time : Duration.total (s.waits later) = .ofMillis 30 := by
    rw [waited]
    decide
  exact ⟨rfl, by decide, onTime.mpr (by decide), fits, waited, time ▸ exactly fits, by decide⟩

/-- A fraction of a millisecond is not waited, and the uptime runs ahead of the timer; neither is what is too long
to be published. -/
theorem not_always_on_time :
    let s := (empty 4 .stopped : Scheduler Nat PublishedPeriod).run [.start (.ofNanos 1500000)]
    let slow := (empty 4 .stopped : Scheduler Nat PublishedPeriod).run [.start (.ofMillis 4294967296)]
    (s.active = true ∧ s.period = .ofNanos 1500000 ∧ s.timer.period? = some (.ofMillis 1) ∧ ¬ s.OnTime ∧
      (s.run [.tick restless ()]).uptime ≠ s.uptime + .total (s.waits [.tick restless ()])) ∧
    slow.active = true ∧ slow.period = .ofMillis 4294967296 ∧
      slow.timer.period? = some (.ofMillis 4294967295) ∧ ¬ slow.OnTime := by
  decide

end Scheduler

namespace Board.Badge

theorem Reached.published {power : Power.Config} {b : Badge} (reached : Reached power b) :
    b.scheduler.Published := by
  induction reached with
  | booted period counters =>
    have started : (ticking period).Published :=
      .of_start (Scheduler.empty Scheduler.defaultCapacity period) (by decide : Scheduler.shortestPeriod ≤ defaultPeriod)
    exact started.of_pace (pace_boot period counters power)
  | ticked earlier ih => exact ih.of_pace (pace_tick _)
  | pressed earlier ih => exact ih.of_pace (pace_press _)
  | @slept b earlier ih =>
    unfold takeSleep
    split
    · exact ih
    · exact .of_stop b.scheduler

/-- On its board a badge is always on time: the period of its ticks fits. -/
theorem Reached.onTime {power : Power.Config} {b : Badge} (reached : Reached power b) : b.scheduler.OnTime := by
  rw [reached.published.onTime_iff]
  intro period ticks
  have same : b.scheduler.period = period := Option.some.inj (Option.ite_none_right_eq_some.mp ticks).2
  rw [← same, reached.period]
  decide

end Board.Badge
end ConferenceBadge
