import ConferenceBadge.Proofs.Session.Course

/-!
Input postpones sleep: in every course of a session, and of the badge on its board, the badge waits for
the response time anew after every boot and every input, and neither looks for sleep nor asks for it
sooner (`input_postpones_sleep`).
-/
namespace ConferenceBadge

open Console

namespace Console.Session

theorem Course.waits {first s : Session} {earlier : List Moment} (course : Course first earlier s)
    (booted : Emulator.Reached first.options.power first.badge)
    (armed : Waits first.options.power.responseTime [.booted] first.badge.scheduler.tasks) :
    Waits first.options.power.responseTime (.booted :: earlier) s.badge.scheduler.tasks := by
  induction course with
  | begun => exact armed
  | noted earlier clock transcript ih => exact ih
  | @restarted moments s earlier asleep sleeping around ih =>
    rw [← earlier.kept.1] at ih ⊢
    exact Emulator.waits_boot ih.patient (s.store around) around.now s.badge.radio.afterSleep s.options.period
  | dozed earlier sleeping left ih => exact ih
  | @stayed moments s earlier awake around ih =>
    rw [(stayOn_frame s around).1, (Emulator.takeSleep_frame _).1]
    exact (earlier.reached booted).waits_tick ih around.now
  | pressed earlier awake ih => exact (earlier.reached booted).waits_press ih
  | tuned earlier inRange ih => exact ih
  | drawn earlier awake now ih => exact ih

end Console.Session

/-- Input postpones sleep. In every course of a session, and of the badge on its board, the badge is
patient: it asks for sleep only in a tick with which the tick time since the last boot or input exceeds
the response time; and if that is above zero, idle detection runs just in those ticks with which the tick
time since it was last armed, by a boot, an input or a run of its own, exceeds it. -/
theorem input_postpones_sleep :
    (∀ (options : Options) (transcript : Option Transcript) (around : Surroundings)
        (inputs : List (Surroundings × String)),
      Patient options.power.responseTime (.booted :: (Session.start options transcript around).state.moments inputs)) ∧
    ∀ (period : Board.PublishedPeriod) (counters : Board.Counters) (power : Power.Config)
        (steps : List Board.Badge.Step),
      Patient power.responseTime (.booted :: (Board.Badge.boot period counters power).state.moments steps) := by
  constructor
  · intro options transcript around inputs
    let store := AppStore.ofRoot options.root (around.filesWith transcript)
    have course := (show Session.Course (Session.start options transcript around).state [] _ from .begun).after inputs
    exact (course.waits (.booted store around.now (.off options.wifi) options.period)
      (Emulator.waits_boot .nil store around.now (.off options.wifi) options.period)).patient
  · intro period counters power steps
    exact (Board.Badge.Reached.booted period counters).patient (Board.Badge.waits_boot period counters power) steps

/-- A badge without input asks for sleep in the second tick. -/
def Console.Options.dozy : Options := { standard with power := ⟨.ofMillis 15, .ofMillis 100⟩ }

def Console.Session.dozy : Session := (start .dozy none .nothing).state

theorem input_postpones_sleep_dozy :
    Session.dozy.moments (typed ["tick", "press", "tick 2", "press", "tick"]) =
        [.ticked (.ofMillis 10) false false, .pressed, .ticked (.ofMillis 10) false false,
          .ticked (.ofMillis 10) true true, .booted, .ticked (.ofMillis 10) false false] ∧
      Patient (.ofMillis 15) [.booted, .ticked (.ofMillis 10) false false, .pressed,
        .ticked (.ofMillis 10) false false, .ticked (.ofMillis 10) true true, .booted,
        .ticked (.ofMillis 10) false false] := by
  have moments : Session.dozy.moments (typed ["tick", "press", "tick 2", "press", "tick"]) =
      [.ticked (.ofMillis 10) false false, .pressed, .ticked (.ofMillis 10) false false,
        .ticked (.ofMillis 10) true true, .booted, .ticked (.ofMillis 10) false false] := by decide +kernel
  refine ⟨moments, ?_⟩
  rw [← moments]
  exact input_postpones_sleep.1 .dozy none .nothing _

end ConferenceBadge
