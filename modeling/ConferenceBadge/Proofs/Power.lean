import ConferenceBadge.Power
import ConferenceBadge.Proofs.Guarantee
import ConferenceBadge.Scheduler.Pass

/-!
What the power manager does: its task asks for sleep exactly where the idle time that it is told is
longer than the threshold, and an input re-arms a task that is there.
-/
namespace ConferenceBadge.Power

variable {κ η σ ω : Type} {I : Interface} {registry : Registry κ σ} {rely : I.Rely} {s : σ}

/-- A response time from settings is never zero. -/
theorem Config.responseTime_ofSettings (settings : String → String → Option Nat) :
    .zero < (Config.ofSettings settings).1.responseTime := by
  unfold Config.ofSettings
  cases settings settingsSpace responseTimeKey with
  | none => decide
  | some millis =>
    cases millis with
    | zero => decide
    | succ less =>
      simp only [Duration.lt_iff, Duration.ofMillis, Duration.nanos_ofNanos, Duration.nanos_zero, Duration.maxNanos]
      omega

namespace Manager

variable {m : Manager κ η}

/-- The platform after the hook, if there is one. -/
def hooked (m : Manager κ η) (handler : Handler (Platform η) ω) (idle : IdleTime) (w : ω) : ω :=
  m.hook.elim w fun hook => (handler (.preSleep hook idle) w).state

/-- Where the badge does not stay idle for long, the manager's task changes nothing. -/
theorem ensures_run_awake [ToString κ] {p : Pass κ} {quiet : Interface.silent.Rely}
    (short : p.idleTime.longerThan m.config.sleepThreshold = false) (handler : Handler (Platform η) ω) (w : ω) :
    Program.Ensures Pass.registry quiet (fun ran after => ran = ((.again m.config.responseTime, m), w) ∧ after = p)
      (m.run.serve handler w) p := by
  have decided : m.decision p.idleTime = .stayAwake := by simp only [decision, short, Bool.false_eq_true, ↓reduceIte]
  simp only [run, Program.serve_andThen, Program.ensures_bind, Program.serve_idleTime, Program.ensures_idleTime,
    Program.ensures_pure, Program.serve_log, Program.ensures_log, Pass.registry, decided]
  exact ⟨rfl, rfl⟩

/-- Where the badge stays idle for long, the manager's task runs the hook and asks for just that much
sleep. -/
theorem ensures_run_asleep [ToString κ] {p : Pass κ} {quiet : Interface.silent.Rely}
    (long : p.idleTime.longerThan m.config.sleepThreshold = true) (handler : Handler (Platform η) ω) (w : ω) :
    Program.Ensures Pass.registry quiet
      (fun ran after => ran = ((.again m.config.responseTime, { m with requests := m.requests + 1 }),
        (handler (.sleep ⟨p.idleTime.duration?⟩) (m.hooked handler p.idleTime w)).state) ∧ after = p)
      (m.run.serve handler w) p := by
  have decided : m.decision p.idleTime = .sleep := by simp only [decision, long, ↓reduceIte]
  simp only [run, Program.serve_andThen, Program.ensures_bind, Program.serve_idleTime, Program.ensures_idleTime,
    Program.ensures_pure, Program.serve_log, Program.ensures_log, Pass.registry, decided, goToSleep, preSleep, sleep,
    hooked]
  cases m.hook with
  | none =>
    simp only [Program.serve_andThen, Program.ensures_bind, Program.serve_log, Program.ensures_log,
      Program.ensures_pure, Program.serve_pure]
    exact Program.ensures_serve_call.mpr ⟨rfl, rfl⟩
  | some hook =>
    simp only [Program.serve_andThen, Program.ensures_bind]
    refine Program.ensures_serve_call.mpr ?_
    show Program.Ensures Pass.registry quiet _ (Program.serve handler _ _) p
    cases (handler (.preSleep hook p.idleTime) w).answer with
    | ok done => exact Program.ensures_serve_call.mpr ⟨rfl, rfl⟩
    | error e => exact Program.ensures_serve_call.mpr ⟨rfl, rfl⟩

/-- An input re-arms a task that is there. -/
theorem ensures_postpone_armed {handle : Handle} (armed : m.handle = some handle)
    (there : (registry (.update handle m.config.responseTime) s).answer = true) :
    Program.Ensures registry rely
      (fun ran after => ran = (.ok handle, m) ∧ after = (registry (.update handle m.config.responseTime) s).state)
      m.postpone s := by
  simp only [postpone, armed, Program.ensures_bind, Program.ensures_update, there, ↓reduceIte, Program.ensures_pure,
    and_self]

theorem ensures_postpone_idle {handle : Handle} (idle : m.handle = none)
    (vacant : (registry (.add m.key m.config.responseTime .hidden) s).answer = .ok handle) :
    Program.Ensures registry rely
      (fun ran after => ran = (.ok handle, { m with handle := some handle }) ∧
        after = (registry (.add m.key m.config.responseTime .hidden) s).state)
      m.postpone s := by
  simp only [postpone, idle, arm, Program.ensures_bind, Program.ensures_add, vacant, Program.ensures_log,
    Program.ensures_pure, and_self]

theorem ensures_arm_frame :
    Program.Ensures registry rely (fun ran _ => ∃ handle, ran.2 = { m with handle }) m.arm s := by
  simp only [arm, Program.ensures_bind, Program.ensures_add]
  cases (registry (.add m.key m.config.responseTime .hidden) s).answer with
  | ok handle => exact ⟨some handle, rfl⟩
  | error e => exact ⟨m.handle, rfl⟩

/-- An input changes nothing of the manager but its handle. -/
theorem ensures_postpone_frame :
    Program.Ensures registry rely (fun ran _ => ∃ handle, ran.2 = { m with handle }) m.postpone s := by
  unfold postpone
  cases m.handle with
  | none => exact ensures_arm_frame
  | some handle =>
    simp only [Program.ensures_bind, Program.ensures_update]
    split
    · exact ⟨m.handle, rfl⟩
    · simp only [Program.ensures_bind, Program.ensures_contains]
      split
      · exact ⟨m.handle, rfl⟩
      · exact ensures_arm_frame

/-- Ending idle detection changes nothing of the manager but its handle. -/
theorem ensures_disarm_frame :
    Program.Ensures registry rely (fun ran _ => ∃ handle, ran.2 = { m with handle }) m.disarm s := by
  unfold disarm
  cases m.handle with
  | none => exact ⟨m.handle, rfl⟩
  | some handle =>
    simp only [Program.ensures_bind, Program.ensures_delete]
    split
    · exact ⟨none, rfl⟩
    · simp only [Program.ensures_bind, Program.ensures_contains]
      split
      · exact ⟨m.handle, rfl⟩
      · exact ⟨none, rfl⟩

end Manager
end ConferenceBadge.Power
