import ConferenceBadge.Proofs.Badge.Reached
import ConferenceBadge.Proofs.Scheduler.Pace

/-!
The ticks of a badge. Boot starts them at a period that is not too short, only a request for sleep that is
taken stops them, and the timer is told both (`Emulator.Reached.ticks`). A badge on its board has one period
for all its ticks (`Board.Badge.Reached.period`).
-/
namespace ConferenceBadge

/-- The timer delivers ticks at the scheduler's period while that is running, and none while it is not;
the period is not too short. -/
structure Scheduler.Ticks {κ : Type} (s : Scheduler κ ManualTimer) : Prop where
  lasting : shortestPeriod ≤ s.period
  timer : s.timer.running = if s.active then some s.period else none

theorem Scheduler.Ticks.of_pace {κ : Type} {s after : Scheduler κ ManualTimer} (ticks : s.Ticks)
    (same : after.pace = s.pace) : after.Ticks := by
  simp only [pace, Prod.mk.injEq] at same
  obtain ⟨timer, period, active⟩ := same
  refine ⟨?_, ?_⟩
  · rw [period]
    exact ticks.lasting
  · rw [timer, active, period]
    exact ticks.timer

theorem Scheduler.active_of_pace {κ τ : Type} {s after : Scheduler κ τ} (same : after.pace = s.pace) :
    after.active = s.active := congrArg (fun pace => pace.2.2) same

theorem Scheduler.period_of_pace {κ τ : Type} {s after : Scheduler κ τ} (same : after.pace = s.pace) :
    after.period = s.period := congrArg (fun pace => pace.2.1) same

namespace Emulator

/-- The ticks that boot starts are running. -/
theorem startTicks_ticks (period : Duration) :
    (startTicks period).state.Ticks ∧ (startTicks period).state.active = true := by
  have started (s : Scheduler Key ManualTimer) (period : Duration) (long : (s.start period).answer = true) :
      (s.start period).state.Ticks ∧ (s.start period).state.active = true := by
    by_cases short : period < Scheduler.shortestPeriod
    · rw [Scheduler.start, if_pos short] at long
      contradiction
    · rw [Scheduler.start, if_neg short]
      exact ⟨⟨Duration.not_lt.mp short, rfl⟩, rfl⟩
  simp only [startTicks]
  split
  · next long => exact started _ _ long
  · exact started _ _ rfl

/-- What boot does after it has started the ticks leaves their pace. -/
theorem pace_boot (store : AppStore) (now : Int) (radio : Radio) (power : Power.Config) (period : Duration) :
    (boot store now radio power period).state.scheduler.pace = (startTicks period).state.pace :=
  (Scheduler.pace_run _ _ _ ()).trans (Scheduler.pace_run _ _ _ _)

theorem boot_ticks (store : AppStore) (now : Int) (radio : Radio) (power : Power.Config) (period : Duration) :
    (boot store now radio power period).state.scheduler.Ticks ∧
      (boot store now radio power period).state.scheduler.active = true := by
  have same := pace_boot store now radio power period
  obtain ⟨ticks, active⟩ := startTicks_ticks period
  exact ⟨ticks.of_pace same, (Scheduler.active_of_pace same).trans active⟩

theorem pace_tick (e : Emulator) (now : Int) : (e.tick now).state.scheduler.pace = e.scheduler.pace :=
  Scheduler.pace_tick _ _ _

theorem pace_press (e : Emulator) : e.press.state.scheduler.pace = e.scheduler.pace := Scheduler.pace_run _ _ _ ()

/-- In every state that is reached the timer does what the scheduler wants. -/
theorem Reached.ticks {power : Power.Config} {e : Emulator} (reached : Reached power e) : e.scheduler.Ticks := by
  induction reached with
  | booted store now radio period => exact (boot_ticks store now radio power period).1
  | ticked earlier now ih => exact ih.of_pace (pace_tick _ now)
  | pressed earlier ih => exact ih.of_pace (pace_press _)
  | tuned earlier radio ih => exact ih
  | drawn earlier now ih => exact ih
  | @slept e earlier ih =>
    unfold takeSleep
    split
    · exact ih
    · exact ⟨ih.lasting, rfl⟩

end Emulator

namespace Board.Badge

/-- The scheduler that boot has ticking before anything is registered. -/
def ticking (period : PublishedPeriod) : Scheduler Key PublishedPeriod :=
  ((Scheduler.empty Scheduler.defaultCapacity period).start defaultPeriod).state

/-- What boot does after it has started the ticks leaves their pace. -/
theorem pace_boot (period : PublishedPeriod) (counters : Counters) (power : Power.Config) :
    (boot period counters power).state.scheduler.pace = (ticking period).pace := by
  have services := Scheduler.pace_run
    ((Service.Roster.empty rosterCapacity .standard).startInstalled Key.service false) world (ticking period) counters
  exact (Scheduler.pace_run _ _ _ ()).trans services

theorem pace_tick (b : Badge) : b.tick.state.scheduler.pace = b.scheduler.pace := Scheduler.pace_tick _ _ _

theorem pace_press (b : Badge) : b.press.state.scheduler.pace = b.scheduler.pace := Scheduler.pace_run _ _ _ ()

/-- In every state that is reached the ticks have the period of the board. -/
theorem Reached.period {power : Power.Config} {b : Badge} (reached : Reached power b) :
    b.scheduler.period = defaultPeriod := by
  induction reached with
  | booted period counters => exact Scheduler.period_of_pace (pace_boot period counters power)
  | ticked earlier ih => exact (Scheduler.period_of_pace (pace_tick _)).trans ih
  | pressed earlier ih => exact (Scheduler.period_of_pace (pace_press _)).trans ih
  | slept earlier ih =>
    unfold takeSleep
    split <;> exact ih

/-- In every state that is reached the period is not too short. -/
theorem Reached.lasting {power : Power.Config} {b : Badge} (reached : Reached power b) :
    Scheduler.shortestPeriod ≤ b.scheduler.period := by
  rw [reached.period]
  decide

end Board.Badge
end ConferenceBadge
