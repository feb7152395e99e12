import ConferenceBadge.Proofs.Badge.Ledger
import ConferenceBadge.Proofs.Service.Startup

/-!
The states that a badge can come to: from any boot with a power configuration, by ticks, input,
changes of the radio, redraws and requests for sleep that are taken. In all of them the configuration
is the one of the boot, services go by the standard rules, and a badge without a display draws nothing.
-/
namespace ConferenceBadge

namespace Power.Manager

variable {η τ : Type} {m : Manager Key η} {s : Scheduler Key τ}

/-- An input leaves the tasks what they are known by, and the manager its handle, where its task is
registered. -/
theorem run_postpone_armed {handle : Handle} (armed : m.handle = some handle) (there : s.contains handle = true) :
    (Script.run Scheduler.registry m.postpone s).answer = (.ok handle, m) ∧
      (Script.run Scheduler.registry m.postpone s).state = (s.update handle m.config.responseTime).state := by
  have answer : (Scheduler.registry (.update handle m.config.responseTime) s).answer = true := by
    simp only [Scheduler.registry, Scheduler.update, there, ↓reduceIte]
  exact Script.ensures_run (ensures_postpone_armed armed answer)

/-- At boot the manager's task is registered where there is a place left. -/
theorem run_postpone_idle (idle : m.handle = none) (vacant : s.tasks.length < s.capacity) :
    (Script.run Scheduler.registry m.postpone s).answer =
        (.ok s.nextHandle, { m with handle := some s.nextHandle }) ∧
      (Script.run Scheduler.registry m.postpone s).state = (s.add m.key m.config.responseTime .hidden).state := by
  obtain ⟨answer, -, -⟩ := Scheduler.add_vacant vacant m.key m.config.responseTime .hidden
  exact Script.ensures_run (ensures_postpone_idle idle answer)

/-- Where the manager's task is gone, an input registers it anew if there is a place left. -/
theorem run_postpone_gone (gone : ∀ handle, m.handle = some handle → s.contains handle = false) :
    (Script.run Scheduler.registry m.postpone s).answer.2 =
        (if s.tasks.length < s.capacity then { m with handle := some s.nextHandle } else m) ∧
      (Script.run Scheduler.registry m.postpone s).state = (s.add m.key m.config.responseTime .hidden).state := by
  let armed : Manager Key η := if s.tasks.length < s.capacity then { m with handle := some s.nextHandle } else m
  have arms : Program.Ensures Scheduler.registry (Interface.anyone .silent)
      (fun ran after => ran.2 = armed ∧ after = (s.add m.key m.config.responseTime .hidden).state) m.arm s := by
    simp only [armed, arm, Program.ensures_bind, Program.ensures_add, Scheduler.registry, Scheduler.add]
    split <;> exact ⟨rfl, rfl⟩
  have puts : Program.Ensures Scheduler.registry (Interface.anyone .silent)
      (fun ran after => ran.2 = armed ∧ after = (s.add m.key m.config.responseTime .hidden).state) m.postpone s := by
    unfold postpone
    cases kept : m.handle with
    | none => exact arms
    | some handle =>
      simp only [Program.ensures_bind, Program.ensures_update, Program.ensures_contains, Scheduler.registry,
        Scheduler.update, gone handle kept, Bool.false_eq_true, ↓reduceIte]
      exact arms
  exact Script.ensures_run puts

theorem run_postpone_frame :
    ∃ handle, (Script.run Scheduler.registry m.postpone s).answer.2 = { m with handle } :=
  Script.ensures_run ensures_postpone_frame

theorem run_postpone_config : (Script.run Scheduler.registry m.postpone s).answer.2.config = m.config := by
  obtain ⟨handle, same⟩ := run_postpone_frame (m := m) (s := s)
  rw [same]

end Power.Manager

namespace Emulator

/-- The ledger of the emulated badge. -/
def ledger (e : Emulator) : Ledger := e.shared.ledger

/-- The badge with another radio. -/
def withRadio (e : Emulator) (radio : Radio) : Emulator :=
  { e with shared := { e.shared with body := { e.shared.body with devices := { e.shared.body.devices with radio } } } }

/-- The states that the emulated badge can come to. -/
inductive Reached (power : Power.Config) : Emulator → Prop
  | booted (store : AppStore) (now : Int) (radio : Radio) (period : Duration) :
      Reached power (boot store now radio power period).state
  | ticked {e : Emulator} (earlier : Reached power e) (now : Int) : Reached power (e.tick now).state
  | pressed {e : Emulator} (earlier : Reached power e) : Reached power e.press.state
  | tuned {e : Emulator} (earlier : Reached power e) (radio : Radio) : Reached power (e.withRadio radio)
  | drawn {e : Emulator} (earlier : Reached power e) (now : Int) : Reached power (e.drawHome now).state
  | slept {e : Emulator} (earlier : Reached power e) : Reached power e.takeSleep.state

/-- Boot starts the services and then arms idle detection. -/
theorem boot_started (store : AppStore) (now : Int) (radio : Radio) (power : Power.Config) (period : Duration) :
    ∃ started : Emulator, (boot store now radio power period).state = started.postpone.state ∧
      started.manager = (Power.Manager.idle .power power).withHook (some .sleepScreen) ∧
      Service.Roster.Started Service.Roster.defaultCapacity started.roster started.scheduler ∧
      started.roster.drawingTask.isSome = !started.roster.drawList.isEmpty := by
  have ticking : (startTicks period).state.tasks = [] ∧ (startTicks period).state.Sound 0 ∧
      (startTicks period).state.capacity = Scheduler.defaultCapacity := by
    have kept (s : Scheduler Key ManualTimer) (period : Duration)
        (fresh : s.tasks = [] ∧ s.Sound 0 ∧ s.capacity = Scheduler.defaultCapacity) :
        (s.start period).state.tasks = [] ∧ (s.start period).state.Sound 0 ∧
          (s.start period).state.capacity = Scheduler.defaultCapacity := by
      obtain ⟨tasks, same, -⟩ := s.start_frame period
      obtain ⟨none, sound, capacity⟩ := fresh
      exact ⟨tasks.trans none, sound.start period, same.trans capacity⟩
    have first := kept _ period ⟨rfl, Scheduler.sound_empty Scheduler.defaultCapacity ManualTimer.stopped, rfl⟩
    simp only [startTicks]
    split
    · exact first
    · exact kept _ _ first
  obtain ⟨none, sound, capacity⟩ := ticking
  have few : (startTicks period).state.capacity < Handle.numbers := by
    rw [capacity]
    decide
  have places : Service.Roster.defaultCapacity + 2 ≤ (startTicks period).state.capacity := by
    rw [capacity]
    decide
  obtain ⟨started, drawing⟩ := Program.ensures_run
    (Service.Roster.ensures_startInstalled none sound few places true)
    (Interface.anyone_kept (Devices.world now store)) ⟨.blank, radio⟩
  exact ⟨_, rfl, rfl, started, drawing⟩

theorem ledger_drawHome (e : Emulator) (now : Int) : (e.drawHome now).state.ledger = e.ledger := by
  obtain ⟨sleep, config, drawing, loops⟩ := SharedState.drawScreen_frame e.shared.body .home now
  simp only [ledger, SharedState.ledger, drawHome, sleep, config, drawing, loops]

/-- Taking a request for sleep leaves the tasks as they are, and the ledger but for the request. -/
theorem takeSleep_frame (e : Emulator) :
    e.takeSleep.state.scheduler.tasks = e.scheduler.tasks ∧
      ∃ sleep, e.takeSleep.state.ledger = { e.ledger with sleep } := by
  unfold takeSleep
  split
  · exact ⟨rfl, _, rfl⟩
  · exact ⟨rfl, none, rfl⟩

/-- In every state that is reached the configuration is that of the boot. -/
theorem Reached.steady {power : Power.Config} {e : Emulator} (reached : Reached power e) :
    e.ledger.config = power ∧ e.ledger.Steady true := by
  induction reached with
  | booted store now radio period =>
    obtain ⟨started, same, manager, services, -⟩ := boot_started store now radio power period
    have config : started.manager.config = power := by rw [manager]; rfl
    rw [same]
    exact ⟨Power.Manager.run_postpone_config.trans config, services.rules, fun none => by contradiction⟩
  | @ticked e earlier now ih =>
    obtain ⟨config, steady⟩ := ih
    obtain ⟨same, after⟩ := (SharedState.conducts now).tick_steady e.scheduler steady
    exact ⟨same.trans config, after⟩
  | @pressed e earlier ih =>
    obtain ⟨config, rules, blank⟩ := ih
    exact ⟨Power.Manager.run_postpone_config.trans config, rules, blank⟩
  | tuned earlier radio ih => exact ih
  | drawn earlier now ih =>
    rw [ledger_drawHome]
    exact ih
  | @slept e earlier ih =>
    obtain ⟨-, sleep, same⟩ := e.takeSleep_frame
    rw [same]
    exact ⟨ih.1, ih.2.rules, ih.2.blank⟩

end Emulator

namespace Board.Badge

/-- The ledger of the badge on its board. -/
def ledger (b : Badge) : Ledger := b.shared.ledger

/-- The states that the badge on its board can come to. -/
inductive Reached (power : Power.Config) : Badge → Prop
  | booted (period : PublishedPeriod) (counters : Counters) : Reached power (boot period counters power).state
  | ticked {b : Badge} (earlier : Reached power b) : Reached power b.tick.state
  | pressed {b : Badge} (earlier : Reached power b) : Reached power b.press.state
  | slept {b : Badge} (earlier : Reached power b) : Reached power b.takeSleep.state

/-- Boot starts the services in the image, which draw nothing, and then arms idle detection. -/
theorem boot_started (period : PublishedPeriod) (counters : Counters) (power : Power.Config) :
    ∃ started : Badge, (boot period counters power).state = started.postpone.state ∧
      started.shared.manager = .idle .power power ∧
      Service.Roster.Started rosterCapacity started.shared.roster started.scheduler ∧
      started.shared.roster.drawingTask = none := by
  obtain ⟨started, drawing⟩ := Program.ensures_run
    (Service.Roster.ensures_startInstalled
      (s := ((Scheduler.empty Scheduler.defaultCapacity period : Scheduler Key PublishedPeriod).start
        defaultPeriod).state) rfl ((Scheduler.sound_empty _ _).start _)
      (show Scheduler.defaultCapacity < Handle.numbers by decide)
      (show rosterCapacity + 2 ≤ Scheduler.defaultCapacity by decide) false)
    reliable_kept counters
  exact ⟨_, rfl, rfl, started, by simpa using drawing⟩

/-- Taking a request for sleep leaves the tasks as they are, and the ledger but for the request. -/
theorem takeSleep_frame (b : Badge) :
    b.takeSleep.state.scheduler.tasks = b.scheduler.tasks ∧
      ∃ sleep, b.takeSleep.state.ledger = { b.ledger with sleep } := by
  unfold takeSleep
  split
  · exact ⟨rfl, _, rfl⟩
  · exact ⟨rfl, none, rfl⟩

/-- In every state that is reached the configuration is that of the boot, and nothing draws. -/
theorem Reached.steady {power : Power.Config} {b : Badge} (reached : Reached power b) :
    b.ledger.config = power ∧ b.ledger.Steady false := by
  induction reached with
  | booted period counters =>
    obtain ⟨started, same, manager, services, blank⟩ := boot_started period counters power
    have config : started.shared.manager.config = power := by rw [manager]; rfl
    rw [same]
    exact ⟨Power.Manager.run_postpone_config.trans config, services.rules, fun _ => blank⟩
  | @ticked b earlier ih =>
    obtain ⟨config, steady⟩ := ih
    obtain ⟨same, after⟩ := SharedState.conducts.tick_steady b.scheduler steady
    exact ⟨same.trans config, after⟩
  | @pressed b earlier ih =>
    obtain ⟨config, rules, blank⟩ := ih
    exact ⟨Power.Manager.run_postpone_config.trans config, rules, blank⟩
  | @slept b earlier ih =>
    obtain ⟨-, sleep, same⟩ := b.takeSleep_frame
    rw [same]
    exact ⟨ih.1, ih.2.rules, ih.2.blank⟩

end Board.Badge
end ConferenceBadge
