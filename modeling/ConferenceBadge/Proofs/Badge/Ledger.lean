import ConferenceBadge.Board.Badge
import ConferenceBadge.Emulator
import ConferenceBadge.Proofs.Power
import ConferenceBadge.Proofs.Scheduler.Quiet
import ConferenceBadge.Proofs.Service.Running

/-!
What the owners of a badge's tasks keep: the power manager, the slots of services and the drawing.
Both badges are read as one ledger. Their tasks ask the registry for nothing but the idle time, and
what a task does to the ledger is known from how it is settled (`Conducts`), so a tick goes over the
tasks and the ledger alone (`Conducts.tick`).
-/
namespace ConferenceBadge

/-- What the owners of a badge's tasks keep. -/
structure Ledger where
  config : Power.Config
  /-- the handle that the power manager keeps -/
  power : Option Handle
  requests : UInt32
  sleep : Option Power.SleepRequest
  rules : Service.Config
  /-- the handles that the slots keep -/
  loops : List (Option Handle)
  /-- the handle that the drawing keeps -/
  drawing : Option Handle

namespace Ledger

/-- The handle that the owner of a key keeps. -/
def owner (l : Ledger) : Key → Option Handle
  | .power => l.power
  | .service (.loop slot) => l.loops[slot]?.join
  | .service .draw => l.drawing

/-- The ledger after a task has run and is settled; `idle` is what the task was told. -/
def after (l : Ledger) (idle : IdleTime) (settlement : Settlement) : Key → Ledger
  | .power =>
    if idle.longerThan l.config.sleepThreshold then
      { l with requests := l.requests + 1, sleep := some ⟨idle.duration?⟩ }
    else l
  | .service (.loop slot) => if settlement.stays then l else { l with loops := l.loops.set slot none }
  | .service .draw => if settlement.stays then l else { l with drawing := none }

/-- The ledger with what a roster keeps. -/
def withRoster {σ : Type} (l : Ledger) (r : Service.Roster σ) : Ledger :=
  { l with rules := r.config, loops := Service.Slot.loopTasks r.slots, drawing := r.drawingTask }

/-- Services go by the standard rules, and without a display nothing draws. -/
structure Steady (display : Bool) (l : Ledger) : Prop where
  rules : l.rules = .standard
  blank : display = false → l.drawing = none

variable {l : Ledger} {idle : IdleTime} {settlement : Settlement} {key : Key}

@[simp] theorem config_after : (l.after idle settlement key).config = l.config := by
  unfold after
  split <;> split <;> rfl

/-- What one run of a loop does to the ledger. -/
theorem after_loop {σ : Type} {r last : Service.Roster σ} {slot : Nat} (config : last.config = r.config)
    (drawing : last.drawingTask = r.drawingTask)
    (loops : Service.Slot.loopTasks last.slots = if settlement.stays then Service.Slot.loopTasks r.slots
      else (Service.Slot.loopTasks r.slots).set slot none) :
    l.withRoster last = (l.withRoster r).after idle settlement (.service (.loop slot)) := by
  simp only [withRoster, after, config, drawing, loops]
  split <;> rfl

theorem after_draw {σ : Type} {r last : Service.Roster σ} (config : last.config = r.config)
    (loops : Service.Slot.loopTasks last.slots = Service.Slot.loopTasks r.slots)
    (drawing : last.drawingTask = if settlement.stays then r.drawingTask else none) :
    l.withRoster last = (l.withRoster r).after idle settlement (.service .draw) := by
  simp only [withRoster, after, config, drawing, loops]
  split <;> rfl

theorem Steady.after {display : Bool} (steady : l.Steady display) :
    (l.after idle settlement key).Steady display := by
  obtain ⟨rules, blank⟩ := steady
  unfold Ledger.after
  split
  · split <;> exact ⟨rules, blank⟩
  · split <;> exact ⟨rules, blank⟩
  · split
    · exact ⟨rules, blank⟩
    · exact ⟨rules, fun _ => rfl⟩

end Ledger

/-- A task has run as its owner expects: what it did to the ledger is known from its settlement, the
power manager's task asks to run again, and without a display only a task that nobody owns fails. -/
structure Conducted (display : Bool) (l : Ledger) (idle : IdleTime) (key : Key) (result : Except Fault Outcome)
    (last : Ledger) : Prop where
  kept : last = l.after idle (.ofRun result) key
  again : key = .power → result = .ok (.again l.config.responseTime)
  sound : display = false → Settlement.ofRun result = .faulted → l.owner key = none

/-- Every task of a badge asks the registry for the idle time at most, and runs as its owner expects. -/
def Conducts {ρ : Type} (display : Bool) (ledger : ρ → Ledger) (code : TaskCode Key ρ) : Prop :=
  ∀ key shared (p : Pass Key), (ledger shared).Steady display →
    Program.Ensures Pass.registry (Interface.anyone .silent)
      (fun ran after => after = p ∧ Conducted display (ledger shared) p.idleTime key ran.1 (ledger ran.2))
      (code key shared) p

namespace Conducts

variable {ρ τ : Type} {display : Bool} {ledger : ρ → Ledger} {code : TaskCode Key ρ}

/-- What holds of the tasks kept so far, those that wait, the ledger and the tally is known at the end
of a tick where each task that is passed over or run keeps it. -/
theorem tick (conducts : Conducts display ledger code) {s : Scheduler Key τ} (active : s.active = true)
    {shared : ρ} (steady : (ledger shared).Steady display)
    {motive : List (Task Key) → List (Task Key) → Ledger → TickTally → Prop}
    (skipped : ∀ kept t rest l tally, t.isDue = false → motive kept (t :: rest) l tally →
      motive (kept ++ [t]) rest l tally)
    (dispatched : ∀ kept t rest l tally settlement, t.isDue = true →
      (t.key = .power → settlement = .ofRun (.ok (.again l.config.responseTime))) →
      (display = false → settlement = .faulted → l.owner t.key = none) →
      motive kept (t :: rest) l tally →
      motive (kept ++ (Entry.survivor? ⟨t, some settlement⟩).toList) rest
        (l.after (Task.idleTime (kept ++ t :: rest)) settlement t.key) (tally.counting settlement))
    (first : motive [] s.aged (ledger shared) .none) :
    motive (s.tick code shared).state.1.tasks [] (ledger (s.tick code shared).state.2)
      (s.tick code shared).answer := by
  obtain ⟨tasks, events, same, -, last⟩ := Scheduler.tick_quiet active code shared
    (motive := fun _ kept rest shared tally =>
      (ledger shared).Steady display ∧ motive kept rest (ledger shared) tally)
    (by
      rintro done kept t rest shared tally early ⟨steady, before⟩
      exact ⟨steady, skipped kept t rest _ tally early before⟩)
    (by
      rintro done kept t rest shared tally due ⟨steady, before⟩ p told
      refine (conducts t.key shared p steady).mono ?_
      rintro ran after ⟨quiet, kept, again, sound⟩
      have held := dispatched _ t rest _ tally (.ofRun ran.1) due
        (fun power => congrArg Settlement.ofRun (again power)) sound before
      rw [← told, ← kept] at held
      exact ⟨quiet, kept ▸ steady.after, held⟩)
    ⟨steady, first⟩
  rw [same]
  exact last

/-- A tick leaves the configuration as it is, and the ledger steady. -/
theorem tick_steady (conducts : Conducts display ledger code) (s : Scheduler Key τ) {shared : ρ}
    (steady : (ledger shared).Steady display) :
    (ledger (s.tick code shared).state.2).config = (ledger shared).config ∧
      (ledger (s.tick code shared).state.2).Steady display := by
  cases active : s.active with
  | false =>
    rw [(s.tick_stopped active code shared).1]
    exact ⟨rfl, steady⟩
  | true =>
    refine conducts.tick active steady
      (motive := fun _ _ l _ => l.config = (ledger shared).config ∧ l.Steady display) ?_ ?_ ⟨rfl, steady⟩
    · exact fun kept t rest l tally early before => before
    · rintro kept t rest l tally settlement due again sound ⟨config, before⟩
      exact ⟨Ledger.config_after.trans config, before.after⟩

end Conducts

namespace SharedState

/-- The ledger of the emulated badge. -/
def ledger (s : SharedState) : Ledger where
  config := s.manager.config
  power := s.manager.handle
  requests := s.manager.requests
  sleep := s.body.sleep
  rules := s.body.roster.config
  loops := Service.Slot.loopTasks s.body.roster.slots
  drawing := s.body.roster.drawingTask

/-- Drawing a screen leaves what services keep, and the request for sleep. -/
theorem drawScreen_frame (b : Body) (screen : Screen) (now : Int) :
    (b.drawScreen screen now).state.sleep = b.sleep ∧
      (b.drawScreen screen now).state.roster.config = b.roster.config ∧
      (b.drawScreen screen now).state.roster.drawingTask = b.roster.drawingTask ∧
      Service.Slot.loopTasks (b.drawScreen screen now).state.roster.slots = Service.Slot.loopTasks b.roster.slots := by
  obtain ⟨-, config, drawing, loops⟩ := Program.ensures_runAlone (Service.Roster.ensures_drawExtra b.roster)
    (Interface.anyone_kept (Devices.running now))
    { b.devices with panel := (b.devices.panel.switchTo screen).beginDrawing }
  exact ⟨rfl, config, drawing, loops⟩

/-- The hook before sleep leaves what services keep. -/
theorem hooked_frame (m : Power.Manager Key SleepHook) (b : Body) (idle : IdleTime) (now : Int) :
    (m.hooked (Body.platform now) idle b).roster.config = b.roster.config ∧
      (m.hooked (Body.platform now) idle b).roster.drawingTask = b.roster.drawingTask ∧
      Service.Slot.loopTasks (m.hooked (Body.platform now) idle b).roster.slots =
        Service.Slot.loopTasks b.roster.slots := by
  unfold Power.Manager.hooked
  cases m.hook with
  | none => exact ⟨rfl, rfl, rfl⟩
  | some hook =>
    obtain ⟨-, frame⟩ := drawScreen_frame b .sleeping now
    simp only [Option.elim_some, Body.platform, Body.drawSleepScreen]
    split <;> exact frame

/-- The emulated badge has a display. -/
theorem conducts (now : Int) : Conducts true ledger (code now) := by
  intro key shared p steady
  cases key with
  | power =>
    simp only [code, Program.ensures_bind]
    cases long : p.idleTime.longerThan shared.manager.config.sleepThreshold with
    | true =>
      refine (Power.Manager.ensures_run_asleep long (Body.platform now) shared.body).mono ?_
      rintro _ p ⟨rfl, rfl⟩
      refine ⟨rfl, ?_, fun _ => rfl, fun none => by contradiction⟩
      obtain ⟨config, drawing, loops⟩ := hooked_frame shared.manager shared.body p.idleTime now
      simp only [ledger, Ledger.after, long, ↓reduceIte, Body.platform, config, drawing, loops]
    | false =>
      refine (Power.Manager.ensures_run_awake long (Body.platform now) shared.body).mono ?_
      rintro _ _ ⟨rfl, rfl⟩
      refine ⟨rfl, ?_, fun _ => rfl, fun none => by contradiction⟩
      simp only [ledger, Ledger.after, long, Bool.false_eq_true, ↓reduceIte]
  | service task =>
    cases task with
    | loop slot =>
      simp only [code, Program.ensures_bind]
      have patient : shared.body.roster.config.wifiRetryDelay ≠ .zero := by
        rw [show shared.body.roster.config = .standard from steady.rules]
        decide
      refine (Program.ensures_serve (Service.Roster.ensures_loopOnce shared.body.roster slot patient)
        (Interface.anyone_kept (Devices.running now)) shared.body.devices).mono ?_
      rintro ⟨⟨result, roster⟩, devices⟩ _ ⟨rfl, config, drawing, loops, -⟩
      exact ⟨rfl, shared.ledger.after_loop config drawing loops, fun power => by contradiction,
        fun none => by contradiction⟩
    | draw =>
      simp only [code, Program.ensures_bind]
      have calm : shared.body.roster.config.shortestDrawInterval ≠ .zero := by
        rw [show shared.body.roster.config = .standard from steady.rules]
        decide
      refine (Program.ensures_serve (Service.Roster.ensures_drawScheduled shared.body.roster calm)
        (Interface.anyone_kept (Devices.running now)) shared.body.devices).mono ?_
      rintro ⟨⟨outcome, roster⟩, devices⟩ _ ⟨rfl, config, loops, drawing⟩
      exact ⟨rfl, shared.ledger.after_draw config loops drawing, fun power => by contradiction,
        fun none => by contradiction⟩

end SharedState

namespace Board

/-- The loops of the services in the image do not fail. -/
def reliable : (Service.World Heartbeat).Rely
  | .loop _, (result, _) => ∃ outcome, result = .ok outcome
  | _, _ => True

theorem reliable_kept (c : Service.Call Heartbeat) (counters : Counters) :
    reliable c (world c counters).answer := by
  cases c with
  | loop service => exact ⟨_, rfl⟩
  | _ => trivial

namespace SharedState

/-- The ledger of the badge on its board. -/
def ledger (s : SharedState) : Ledger where
  config := s.manager.config
  power := s.manager.handle
  requests := s.manager.requests
  sleep := s.sleep
  rules := s.roster.config
  loops := Service.Slot.loopTasks s.roster.slots
  drawing := s.roster.drawingTask

/-- One run of idle detection. -/
theorem ensures_power (s : SharedState) (p : Pass Key) :
    Program.Ensures Pass.registry (Interface.anyone .silent)
      (fun ran after => after = p ∧ ran = (.ok (.again s.manager.config.responseTime),
        if p.idleTime.longerThan s.manager.config.sleepThreshold then
          { s with
            manager := { s.manager with requests := s.manager.requests + 1 }, sleep := some ⟨p.idleTime.duration?⟩ }
        else s))
      (code .power s) p := by
  simp only [code, Program.ensures_bind]
  cases long : p.idleTime.longerThan s.manager.config.sleepThreshold with
  | true =>
    refine (Power.Manager.ensures_run_asleep long platform s.sleep).mono ?_
    rintro _ _ ⟨rfl, rfl⟩
    exact ⟨rfl, rfl⟩
  | false =>
    refine (Power.Manager.ensures_run_awake long platform s.sleep).mono ?_
    rintro _ _ ⟨rfl, rfl⟩
    exact ⟨rfl, rfl⟩

/-- The board has no display. -/
theorem conducts : Conducts false ledger code := by
  intro key shared p steady
  cases key with
  | power =>
    refine (shared.ensures_power p).mono ?_
    rintro _ _ ⟨rfl, rfl⟩
    refine ⟨rfl, ?_, fun _ => rfl, ?_⟩
    · show ledger (if _ then _ else _) = _
      split
      · next long => exact (if_pos long).symm
      · next short => exact (if_neg short).symm
    · intro _ faulted
      obtain ⟨fault, failed⟩ := Settlement.ofRun_eq_faulted faulted
      contradiction
  | service task =>
    cases task with
    | loop slot =>
      simp only [code, Program.ensures_bind]
      have patient : shared.roster.config.wifiRetryDelay ≠ .zero := by
        rw [show shared.roster.config = .standard from steady.rules]
        decide
      refine (Program.ensures_serve (Service.Roster.ensures_loopOnce shared.roster slot patient)
        reliable_kept shared.counters).mono ?_
      rintro ⟨⟨result, roster⟩, counters⟩ _ ⟨rfl, config, drawing, loops, fault⟩
      refine ⟨rfl, shared.ledger.after_loop config drawing loops, fun power => by contradiction, ?_⟩
      intro _ faulted
      obtain ⟨cause, failed⟩ := Settlement.ofRun_eq_faulted faulted
      rcases fault cause failed with absent | ⟨service, e, last, outcome, ok⟩
      · simp [Ledger.owner, ledger, Service.Slot.loopTasks, absent]
      · contradiction
    | draw =>
      refine ⟨rfl, ?_, fun power => by contradiction, fun _ _ => steady.blank rfl⟩
      have blank : shared.roster.drawingTask = none := steady.blank rfl
      simp only [Ledger.after, Settlement.ofRun, Settlement.stays, Bool.false_eq_true, ↓reduceIte, ledger, blank]

end SharedState
end Board
end ConferenceBadge
