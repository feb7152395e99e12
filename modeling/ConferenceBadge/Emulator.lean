import ConferenceBadge.Demo.AppStore
import ConferenceBadge.Device.ManualTimer
import ConferenceBadge.Key
import ConferenceBadge.Power
import ConferenceBadge.Scheduler.Tick
import ConferenceBadge.Service.Running
import ConferenceBadge.Service.Startup

/-!
The emulated badge, from boot to deep sleep: a scheduler whose tasks are idle detection, the loops of
the demo services and their drawing, on a simulated panel and radio. Before sleep the sleep screen is
drawn, with fresh service rows on it.
-/
namespace ConferenceBadge

/-- The panel and the radio. -/
structure Devices where
  panel : Panel
  radio : Radio

/-- What the badge does before sleep. -/
inductive SleepHook where
  | sleepScreen
deriving DecidableEq

/-- The badge without its scheduler and its power manager. -/
structure Body where
  devices : Devices
  roster : Service.Roster DemoService
  /-- the request for sleep that nobody has taken yet -/
  sleep : Option Power.SleepRequest

/-- What all tasks work on, besides the registry. -/
structure SharedState where
  manager : Power.Manager Key SleepHook
  body : Body

/-- One boot of the emulated badge. -/
structure Emulator where
  scheduler : Scheduler Key ManualTimer
  shared : SharedState
  /-- services see to redraws since boot -/
  servicesDraw : Bool

namespace Devices

/-- Answers services and those who run them; `now` is the time on the host. -/
def world (now : Int) (store : AppStore) : Handler (Service.World DemoService) Devices
  | .count, d => ⟨store.count, d, []⟩
  | .name index, d => ⟨store.name? index, d, []⟩
  | .manifest app limit, d => ⟨store.manifest app.text limit, d, []⟩
  | .service app, d => ⟨AppStore.service app.text, d, []⟩
  | .connected, d => ⟨d.radio.connected, d, []⟩
  | .connect, d =>
    let r := d.radio.connect
    ⟨r.answer, { d with radio := r.state }, r.log⟩
  | .time, d => ⟨d.radio.shownTime now, d, []⟩
  | .setClock, d =>
    let r := d.radio.setClock
    ⟨r.answer, { d with radio := r.state }, r.log⟩
  | .setUp service, d => ⟨(.ok (), service), d, []⟩
  | .loop service, d =>
    let r := service.loop
    ⟨(r.answer, r.state), d, r.log⟩
  | .draw service budget, d =>
    let drawn := service.draw d.panel.back budget now
    ⟨(drawn.1, service), { d with panel := { d.panel with back := drawn.2 } }, []⟩
  | .beginDrawing, d => ⟨(), { d with panel := d.panel.beginDrawing }, []⟩
  | .endDrawing, d => ⟨(), { d with panel := d.panel.endDrawing }, []⟩
  | .height, d => ⟨Panel.height, d, []⟩

/-- Answers running services, which never look for the store. -/
def running (now : Int) : Handler (Service.World DemoService) Devices := world now .absent

end Devices

namespace Body

def line (level : Log.Level) (text : String) : Log.Line := ⟨level, .emulator, text⟩

/-- Draws a screen with fresh service rows on it, outside the scheduler. -/
def drawScreen (b : Body) (screen : Screen) (now : Int) : Reply Body Unit :=
  let panel := (b.devices.panel.switchTo screen).beginDrawing
  let drawn := b.roster.drawExtra.runAlone (Devices.running now) { b.devices with panel }
  let devices := { drawn.state with panel := drawn.state.panel.endDrawing }
  ⟨(), { b with devices, roster := drawn.answer }, drawn.log⟩

/-- Puts the sleep screen on the panel, which keeps showing it during sleep. -/
def drawSleepScreen (b : Body) (idle : IdleTime) (now : Int) :
    Reply Body (Except Power.HookError Unit) :=
  let drawn := b.drawScreen .sleeping now
  if drawn.state.devices.panel.front.rows.isEmpty then
    { drawn with answer := .error ⟨"sleep screen left blank"⟩ }
  else
    ⟨.ok (), drawn.state, drawn.log ++ [line .debug s!"sleep screen drawn, idle {idle}"]⟩

def platform (now : Int) : Handler (Power.Platform SleepHook) Body
  | .preSleep .sleepScreen idle, b => b.drawSleepScreen idle now
  | .sleep request, b => ⟨(), { b with sleep := some request }, []⟩

end Body

namespace SharedState

/-- What runs for each key. -/
def code (now : Int) : TaskCode Key SharedState
  | .power, s => do
    let ((outcome, manager), body) ← s.manager.run.serve (Body.platform now) s.body
    return (.ok outcome, { manager, body })
  | .service (.loop slot), s => do
    let ((result, roster), devices) ←
      (s.body.roster.loopOnce slot).serve (Devices.running now) s.body.devices
    return (result, { s with body := { s.body with roster, devices } })
  | .service .draw, s => do
    let ((outcome, roster), devices) ←
      s.body.roster.drawScheduled.serve (Devices.running now) s.body.devices
    return (.ok outcome, { s with body := { s.body with roster, devices } })

end SharedState

namespace Emulator

/-- The period of ticks where the one asked for is refused. -/
def defaultPeriod : Duration := .ofMillis 10

/-- Starts the ticks at a period, or at the default one. -/
def startTicks (period : Duration) : Reply (Scheduler Key ManualTimer) Unit :=
  let fresh : Scheduler Key ManualTimer := .empty Scheduler.defaultCapacity .stopped
  let first := fresh.start period
  if first.answer then ⟨(), first.state, first.log⟩
  else
    let second := first.state.start defaultPeriod
    ⟨(), second.state,
      first.log ++ Body.line .warn s!"using {defaultPeriod.text} ticks instead" :: second.log⟩

/-- Puts off idle detection, between ticks. -/
def postpone (e : Emulator) : Reply Emulator (Except RegistryError Handle) :=
  let armed := Script.run Scheduler.registry e.shared.manager.postpone e.scheduler
  ⟨armed.answer.1, { e with scheduler := armed.state, shared := { e.shared with manager := armed.answer.2 } },
    armed.log⟩

/-- Boots: starts the ticks and the services, draws the home screen unless services see to that, and
arms idle detection. -/
def boot (store : AppStore) (now : Int) (radio : Radio) (power : Power.Config) (period : Duration) :
    Reply Emulator Unit :=
  let ticking := startTicks period
  let roster : Service.Roster DemoService := .empty Service.Roster.defaultCapacity .standard
  let started := (roster.startInstalled Key.service true).run Scheduler.registry (Devices.world now store)
    ticking.state ⟨.blank, radio⟩
  let (servicesDraw, roster) := started.answer
  let (scheduler, devices) := started.state
  let devices := if servicesDraw then devices else { devices with panel := devices.panel.redraw }
  let manager := (Power.Manager.idle Key.power power).withHook (some .sleepScreen)
  let booted : Emulator :=
    { scheduler, shared := { manager, body := { devices, roster, sleep := none } }, servicesDraw }
  let armed := booted.postpone
  ⟨(), armed.state, ticking.log ++ started.log ++ armed.log ++ Power.notArmed .emulator armed.answer⟩

def tick (e : Emulator) (now : Int) : Reply Emulator TickTally :=
  let ticked := e.scheduler.tick (SharedState.code now) e.shared
  ⟨ticked.answer, { e with scheduler := ticked.state.1, shared := ticked.state.2 }, ticked.log⟩

/-- User input, which puts off idle detection. -/
def press (e : Emulator) : Reply Emulator (Except RegistryError Handle) := e.postpone

/-- Takes the request for sleep, if there is one, and stops the ticks. -/
def takeSleep (e : Emulator) : Reply Emulator (Option Power.SleepRequest) :=
  match e.shared.body.sleep with
  | none => ⟨none, e, []⟩
  | some request =>
    let stopped := e.scheduler.stop
    let body := { e.shared.body with sleep := none }
    ⟨some request, { e with scheduler := stopped.state, shared := { e.shared with body } }, stopped.log⟩

/-- Draws the home screen with every service row, outside the scheduler. -/
def drawHome (e : Emulator) (now : Int) : Reply Emulator Unit :=
  let drawn := e.shared.body.drawScreen .home now
  ⟨(), { e with shared := { e.shared with body := drawn.state } }, drawn.log⟩

def panel (e : Emulator) : Panel := e.shared.body.devices.panel

def radio (e : Emulator) : Radio := e.shared.body.devices.radio

def roster (e : Emulator) : Service.Roster DemoService := e.shared.body.roster

def manager (e : Emulator) : Power.Manager Key SleepHook := e.shared.manager

/-- Puts an access point in or out of range. -/
def setInRange (e : Emulator) (inRange : Bool) : Emulator :=
  let devices := { e.shared.body.devices with radio := e.radio.setInRange inRange }
  { e with shared := { e.shared with body := { e.shared.body with devices } } }

end Emulator
end ConferenceBadge
