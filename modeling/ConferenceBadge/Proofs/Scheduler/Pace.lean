import ConferenceBadge.Proofs.Guarantee
import ConferenceBadge.Proofs.Scheduler.Run

/-!
The pace of a scheduler: its timer, the period of its ticks and whether it is running. Only starting and
stopping the ticks changes it (`pace_run`, `pace_tick`).
-/
namespace ConferenceBadge.Scheduler

variable {κ τ ρ : Type}

/-- The timer, the period of the ticks and whether the scheduler is running. -/
def pace (s : Scheduler κ τ) : τ × Duration × Bool := (s.timer, s.period, s.active)

variable [ToString κ]

theorem pace_registry (q : Request κ) (s : Scheduler κ τ) : (registry q s).state.pace = s.pace := by
  cases q with
  | add key target visibility =>
    simp only [registry, add]
    split <;> rfl
  | update handle target =>
    simp only [registry, update]
    split <;> rfl
  | delete handle =>
    simp only [registry, delete]
    split <;> rfl
  | contains handle => rfl
  | idleTime => rfl

theorem pace_carryOut (c : Change κ) (s : Scheduler κ τ) : (s.carryOut c).state.pace = s.pace := by
  cases c with
  | add task =>
    simp only [carryOut]
    split <;> rfl
  | retarget handle target => exact pace_registry (.update handle target) s
  | delete handle => exact pace_registry (.delete handle) s

theorem pace_carryOutAll (changes : List (Change κ)) (s : Scheduler κ τ) :
    (carryOutAll changes s).state.pace = s.pace := by
  induction changes generalizing s with
  | nil => rfl
  | cons c rest ih => exact (ih _).trans (pace_carryOut c s)

/-- A tick leaves the pace as it is. -/
theorem pace_tick (s : Scheduler κ τ) (code : TaskCode κ ρ) (shared : ρ) :
    (s.tick code shared).state.1.pace = s.pace := by
  cases active : s.active with
  | false => rw [(s.tick_stopped active code shared).1]
  | true =>
    rw [(s.tick_active active code shared).1]
    exact pace_carryOutAll _ _

/-- So does any program between ticks. -/
theorem pace_run {I : Interface} {ω α : Type} (p : Program κ I α) (handler : Handler I ω) (s : Scheduler κ τ) (w : ω) :
    (p.run registry handler s w).state.1.pace = s.pace :=
  Program.run_kept registry handler (motive := fun (after : Scheduler κ τ) _ => after.pace = s.pace)
    (fun q after _ same => (pace_registry q after).trans same) (fun _ _ _ same => same) p rfl

end ConferenceBadge.Scheduler
