import ConferenceBadge.Proofs.Service.WifiRequired
import ConferenceBadge.Proofs.Session.Course

/-!
Services and the range of the access point. The simulated radio is connected only while an access point is in range
(`Radio.Sound`), whatever is asked of it and however the session goes (`Console.Session.Course.sound`). So nothing
that requires wifi is set up or run out of range.
-/
namespace ConferenceBadge

/-- Connected means that an access point is in range. -/
def Radio.Sound (r : Radio) : Prop := r.connected = true → r.inRange = true

namespace Radio

variable {r : Radio}

theorem sound_off (inRange : Bool) : (off inRange).Sound := fun connected => by contradiction

theorem sound_afterSleep (r : Radio) : r.afterSleep.Sound := fun connected => by contradiction

theorem sound_setInRange (r : Radio) (inRange : Bool) : (r.setInRange inRange).Sound := fun connected =>
  (Bool.and_eq_true_iff.mp connected).2

theorem sound_connect (r : Radio) : r.connect.state.Sound := id

theorem Sound.setClock (sound : r.Sound) : r.setClock.state.Sound := sound

end Radio

namespace Devices

open Service

/-- Whatever services and those who run them call on keeps the radio sound. -/
theorem sound_world (now : Int) (store : AppStore) (c : Call DemoService) (d : Devices) (sound : d.radio.Sound) :
    (world now store c d).state.radio.Sound := by
  cases c with
  | connect => exact Radio.sound_connect d.radio
  | setClock => exact sound.setClock
  | _ => exact sound

theorem keepsWifi_world (now : Int) (store : AppStore) : KeepsWifi (world now store) where
  connect _ connected := connected
  asked _ up := up
  time _ up := up
  setClock _ up := up

/-- An access point is in range if the manifest needs wifi at any time. -/
def InRangeMet (manifest : Manifest) (d : Devices) : Prop := manifest.needsWifi = true → d.radio.inRange = true

end Devices

namespace Emulator

open Service

/-- The attempts of a boot to start services. -/
def attempts (store : AppStore) (now : Int) (radio : Radio) (period : Duration) : List (Attempt DemoService Devices) :=
  (Roster.empty Roster.defaultCapacity .standard).installing Scheduler.registry (Devices.world now store) Key.service
    true (startTicks period).state ⟨.blank, radio⟩

/-- In every boot with this radio, the slots go to the apps whose services are started, and services that need wifi
are set up only in range. -/
def BootsInRange (radio : Radio) : Prop :=
  ∀ store now power period,
    (boot store now radio power period).state.roster.slots.map (·.name) =
        (attempts store now radio period).filterMap (·.report.toOption) ∧
      ∀ a ∈ attempts store now radio period, a.SetsUpWithin Devices.InRangeMet

theorem bootsInRange {radio : Radio} (sound : radio.Sound) : BootsInRange radio := by
  intro store now power period
  have within := Roster.installing_within_wifi (Devices.keepsWifi_world now store) Scheduler.registry
    (Roster.empty Roster.defaultCapacity .standard) Key.service true (startTicks period).state ⟨.blank, radio⟩
  obtain ⟨split, last, looking, drawingTask, same⟩ := Roster.ends_startInstalled Scheduler.registry
    (Devices.world now store) (startTicks period).state ⟨.blank, radio⟩ (Roster.empty Roster.defaultCapacity .standard)
    Key.service true
  have kept := Program.calls_kept (motive := fun d : Devices => d.radio.Sound) (Devices.sound_world now store)
    ((Roster.empty Roster.defaultCapacity .standard).startInstalled Key.service true) Scheduler.registry
    (startTicks period).state (w := ⟨.blank, radio⟩) sound
  rw [split] at kept
  have roster : (boot store now radio power period).state.roster = { last with drawingTask } := same
  refine ⟨by rw [roster]; exact looking.slots, fun a member c called service call => ?_⟩
  obtain ⟨found, manifest, read, met⟩ := within a member c called service call
  refine ⟨found, manifest, read, fun needed => ?_⟩
  exact kept c (List.mem_cons_of_mem _ (List.mem_flatMap.mpr ⟨a, member, called⟩)) (met needed)

end Emulator

namespace Body

/-- Drawing a screen keeps the radio sound. -/
theorem sound_drawScreen {b : Body} (sound : b.devices.radio.Sound) (screen : Screen) (now : Int) :
    (b.drawScreen screen now).state.devices.radio.Sound := by
  let panel := (b.devices.panel.switchTo screen).beginDrawing
  exact Program.run_kept Registry.absent (Devices.running now) (motive := fun _ (d : Devices) => d.radio.Sound)
    (fun _ _ _ sound => sound) (fun c _ d sound => Devices.sound_world now .absent c d sound) b.roster.drawExtra
    (s := ()) (w := { b.devices with panel }) sound

theorem sound_platform (now : Int) (c : Power.Call SleepHook) (b : Body) (sound : b.devices.radio.Sound) :
    (platform now c b).state.devices.radio.Sound := by
  cases c with
  | sleep request => exact sound
  | preSleep hook idle =>
    obtain ⟨⟩ := hook
    simp only [platform, drawSleepScreen]
    split <;> exact sound_drawScreen sound .sleeping now

end Body

namespace SharedState

/-- Every task keeps the radio sound. -/
theorem sound_code (now : Int) (key : Key) (s : SharedState) (p : Pass Key) (sound : s.body.devices.radio.Sound) :
    ((code now key s).run Pass.registry p).answer.2.body.devices.radio.Sound := by
  have kept : Program.Ensures Pass.registry (Interface.anyone .silent) (fun ran _ => ran.2.body.devices.radio.Sound)
      (code now key s) p := by
    cases key with
    | power =>
      simp only [code, Program.ensures_bind]
      exact Program.ensures_serve_kept (motive := fun b : Body => b.devices.radio.Sound)
        (Body.sound_platform now) _ sound
    | service task =>
      cases task with
      | loop slot =>
        simp only [code, Program.ensures_bind]
        exact Program.ensures_serve_kept (motive := fun d : Devices => d.radio.Sound)
          (Devices.sound_world now .absent) _ sound
      | draw =>
        simp only [code, Program.ensures_bind]
        exact Program.ensures_serve_kept (motive := fun d : Devices => d.radio.Sound)
          (Devices.sound_world now .absent) _ sound
  exact Script.ensures_run kept

end SharedState

namespace Emulator

open Service

variable {e : Emulator}

theorem sound_tick (sound : e.radio.Sound) (now : Int) : (e.tick now).state.radio.Sound :=
  Scheduler.shared_tick (motive := fun s : SharedState => s.body.devices.radio.Sound)
    (fun key s p => SharedState.sound_code now key s p) e.scheduler sound

theorem sound_takeSleep (sound : e.radio.Sound) : e.takeSleep.state.radio.Sound := by
  unfold takeSleep
  split <;> exact sound

theorem sound_boot (store : AppStore) (now : Int) {radio : Radio} (power : Power.Config) (period : Duration)
    (sound : radio.Sound) : (boot store now radio power period).state.radio.Sound := by
  have kept := Program.run_kept Scheduler.registry (Devices.world now store)
    (motive := fun _ (d : Devices) => d.radio.Sound)
    (fun _ _ _ sound => sound) (fun c _ d sound => Devices.sound_world now store c d sound)
    ((Roster.empty Roster.defaultCapacity .standard).startInstalled Key.service true) (s := (startTicks period).state)
    (w := ⟨.blank, radio⟩) sound
  simp only [boot, postpone, Emulator.radio]
  split <;> exact kept

/-- In every tick of the badge, whatever is due, the loops that need wifi run only in range. -/
def TicksInRange (e : Emulator) : Prop :=
  ∀ now, ∀ run ∈ e.scheduler.dispatched (SharedState.code now) e.shared, ∀ task, run.1 = .service task →
    run.2.body.roster.LoopsWithin (Devices.running now) (fun d => d.radio.inRange = true) task run.2.body.devices

theorem ticksInRange (sound : e.radio.Sound) : e.TicksInRange := by
  intro now run among task key κ ψ registry s c called
  have before := Scheduler.dispatched_kept (motive := fun s : SharedState => s.body.devices.radio.Sound)
    (fun key s p => SharedState.sound_code now key s p) e.scheduler sound run among
  have there := Program.calls_kept (motive := fun d : Devices => d.radio.Sound) (Devices.sound_world now .absent)
    (run.2.body.roster.work task) registry s before c called
  obtain ⟨early, loops⟩ := Roster.loopsWithin (Devices.keepsWifi_world now .absent) run.2.body.roster task
    run.2.body.devices κ ψ registry s c called
  refine ⟨early, fun service call => ?_⟩
  obtain ⟨number, slot, same, found, is, met⟩ := loops service call
  exact ⟨number, slot, same, found, is, fun needed => there (met needed)⟩

end Emulator

namespace Console.Session

/-- In every state of a session the radio is sound. -/
theorem Course.sound {first s : Session} {moments : List Moment} (course : Course first moments s)
    (sound : first.badge.radio.Sound) : s.badge.radio.Sound := by
  induction course with
  | begun => exact sound
  | noted earlier clock transcript ih => exact ih
  | @restarted moments s earlier asleep sleeping around ih =>
    exact Emulator.sound_boot _ around.now s.options.power s.options.period s.badge.radio.sound_afterSleep
  | dozed earlier sleeping left ih => exact ih
  | stayed earlier awake around ih =>
    rw [(stayOn_frame _ around).1]
    exact Emulator.sound_takeSleep (Emulator.sound_tick ih around.now)
  | pressed earlier awake ih => exact ih
  | @tuned moments s earlier inRange ih => exact s.badge.radio.sound_setInRange inRange
  | drawn earlier awake now ih => exact Body.sound_drawScreen ih .home now

end Console.Session

namespace Service.Roster

variable {κ σ τ ω : Type} [ToString κ] [TickTimer τ]

/-- Services run only where wifi is if they require it. The network may be any whose attempts to connect succeed only
if wifi is there afterwards, and that does not drop wifi by being asked about it or the clock; the store, the services
and the rules may be any. Whenever a service is set up whose manifest needs wifi at setup or in the loop, wifi is
there; and in every tick, whatever else ran and happened to the network since, every loop that runs is that of a slot,
whose manifest says that it needs no wifi in the loop, or wifi is there. The simulated radio is such a network, and in
every session with the emulated badge it is connected only while an access point is in range; so there no such setup
and no such loop runs out of range. -/
theorem services_run_within_wifi (handler : Handler (World σ) ω) (keeps : KeepsWifi handler) (key : TaskKey → κ)
    (task? : κ → Option TaskKey) (most : Nat) (config : Config) (hostDraws : Bool) :
    (∀ (ψ : Type) (registry : Registry κ ψ) (s : ψ) (w : ω),
      let calls : List (Called σ ω) := ((empty most config).startInstalled key hostDraws).calls registry handler s w
      let attempts := (empty most config).installing registry handler key hostDraws s w
      calls = handler.called .count w :: attempts.flatMap (·.calls) ∧
        ∀ a ∈ attempts, a.SetsUpWithin (WifiMet handler)) ∧
    (∀ (r : Roster σ) (s : Scheduler κ τ) (w : ω), Course handler key task? most config hostDraws r s w →
      ∀ others, ∀ run ∈ s.dispatched (code handler task? others) (r, w), run.2.1.Known handler ∧
        ∀ task, task? run.1 = some task → run.2.1.LoopsWithin handler (Up handler) task run.2.2) ∧
    (∀ now store, KeepsWifi (Devices.world now store)) ∧
    ∀ options transcript around, Emulator.BootsInRange (.off options.wifi) ∧
      ∀ moments s, Console.Session.Course (Console.Session.start options transcript around).state moments s →
        s.badge.radio.Sound ∧ Emulator.BootsInRange s.badge.radio.afterSleep ∧ s.badge.TicksInRange := by
  refine ⟨fun ψ registry s w => ⟨(ends_startInstalled registry handler s w _ key hostDraws).1, ?_⟩, ?_,
    Devices.keepsWifi_world, fun options transcript around => ⟨Emulator.bootsInRange (Radio.sound_off _), ?_⟩⟩
  · exact installing_within_wifi keeps registry _ key hostDraws s w
  · intro r s w course others run among
    have known := Scheduler.dispatched_kept (motive := fun shared : Roster σ × ω => shared.1.Known handler)
      (code_known task? others) s course.known run among
    exact ⟨known, fun task routed => loopsWithin keeps run.2.1 task run.2.2⟩
  · intro moments s course
    have sound := course.sound (Emulator.sound_boot _ around.now options.power options.period (Radio.sound_off _))
    exact ⟨sound, Emulator.bootsInRange s.badge.radio.sound_afterSleep, Emulator.ticksInRange sound⟩

/-- One app that needs wifi at setup, and so in its loop. The network has an access point in range or not, and is
connected or not. -/
def patchy : Handler (World Unit) (Bool × Bool)
  | .count, w => ⟨.ok 1, w, []⟩
  | .name _, w => ⟨AppName.ofString? "news", w, []⟩
  | .manifest _ _, w => ⟨.ok (Manifest.needing true none false), w, []⟩
  | .service _, w => ⟨.ok (), w, []⟩
  | .connected, w => ⟨w.2, w, []⟩
  | .connect, w => ⟨w.1, (w.1, w.1), []⟩
  | .setClock, w => ⟨w.2, w, []⟩
  | .time, w | .height, w => ⟨0, w, []⟩
  | .setUp _, w => ⟨(.ok (), ()), w, []⟩
  | .loop _, w => ⟨(.ok (.again (.ofSeconds 1)), ()), w, []⟩
  | .draw _ _, w => ⟨(.error .notProvided, ()), w, []⟩
  | .beginDrawing, w | .endDrawing, w => ⟨(), w, []⟩

theorem keepsWifi_patchy : KeepsWifi patchy where
  connect _ connected := connected
  asked _ up := up
  time _ up := up
  setClock _ up := up

def serviceTask? : Key → Option TaskKey
  | .service task => some task
  | .power => none

/-- A scheduler that ticks every ten milliseconds. -/
def ticking : Scheduler Key ManualTimer := ((Scheduler.empty 4 .stopped).start (.ofMillis 10)).state

/-- The service is set up in range. Then the access point goes away, and the loop is due: it finds no wifi. -/
theorem services_run_within_wifi_patchy :
    let begun := started patchy Key.service 8 .standard false ticking (true, false)
    let code := code patchy serviceTask? fun _ w => pure (.ok .remove, w)
    let runs := begun.state.1.dispatched code (begun.answer.2, (false, false))
    KeepsWifi patchy ∧
      (begun.answer.2.slots.map (·.manifest.wifiAtLoop) = [true] ∧ runs.map (·.1) = [.service (.loop 0)]) ∧
      ∀ run ∈ runs, run.2.1.LoopsWithin patchy (Up patchy) (.loop 0) run.2.2 := by
  intro begun code runs
  obtain ⟨-, within, -, -⟩ :=
    services_run_within_wifi (τ := ManualTimer) patchy keepsWifi_patchy Key.service serviceTask? 8 .standard false
  have lost : Course patchy Key.service serviceTask? 8 .standard false begun.answer.2 begun.state.1 (false, false) :=
    (Course.begun ticking (true, false)).changed (false, false)
  have evaluated : begun.answer.2.slots.map (·.manifest.wifiAtLoop) = [true] ∧
      runs.map (·.1) = [.service (.loop 0)] := by
    decide +kernel
  refine ⟨keepsWifi_patchy, evaluated, fun run among => ?_⟩
  have key : run.1 = .service (.loop 0) := by
    have known : run.1 ∈ runs.map (·.1) := List.mem_map_of_mem among
    rw [evaluated.2] at known
    exact List.mem_singleton.mp known
  exact (within _ _ _ lost _ run among).2 (.loop 0) (by rw [key]; rfl)

end Service.Roster
end ConferenceBadge
