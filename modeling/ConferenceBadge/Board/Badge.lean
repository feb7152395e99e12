import ConferenceBadge.Board.Heartbeat
import ConferenceBadge.Key
import ConferenceBadge.Power
import ConferenceBadge.Scheduler.Tick
import ConferenceBadge.Service.Running
import ConferenceBadge.Service.Startup

/-!
The badge on its board: a scheduler whose tasks are idle detection and the loops of the services in
the image, with ticks every ten milliseconds. There is no display and no hook before sleep.
-/
namespace ConferenceBadge.Board

/-- What all tasks work on, besides the registry. -/
structure SharedState where
  manager : Power.Manager Key Empty
  /-- the request for sleep that nobody has taken yet -/
  sleep : Option Power.SleepRequest
  roster : Service.Roster Heartbeat
  counters : Counters

/-- One boot of the badge on its board. -/
structure Badge where
  scheduler : Scheduler Key PublishedPeriod
  shared : SharedState

def defaultPeriod : Duration := .ofMillis 10

def rosterCapacity : Nat := 4

/-- Answers the power manager; the state is the request for sleep. -/
def platform : Handler (Power.Platform Empty) (Option Power.SleepRequest)
  | .preSleep hook _, _ => hook.elim
  | .sleep request, _ => ⟨(), some request, []⟩

namespace SharedState

/-- What runs for each key. -/
def code : TaskCode Key SharedState
  | .power, s => do
    let ((outcome, manager), sleep) ← s.manager.run.serve platform s.sleep
    return (.ok outcome, { s with manager, sleep })
  | .service (.loop slot), s => do
    let ((result, roster), counters) ← (s.roster.loopOnce slot).serve world s.counters
    return (result, { s with roster, counters })
  | .service .draw, s => return (.error ⟨"no display attached"⟩, s)

end SharedState

namespace Badge

/-- Puts off idle detection, between ticks. -/
def postpone (b : Badge) : Reply Badge (Except RegistryError Handle) :=
  let armed := Script.run Scheduler.registry b.shared.manager.postpone b.scheduler
  ⟨armed.answer.1, { scheduler := armed.state, shared := { b.shared with manager := armed.answer.2 } }, armed.log⟩

/-- Boots: starts the ticks and the services and arms idle detection. The counters go on from where
they stand. -/
def boot (period : PublishedPeriod) (counters : Counters) (power : Power.Config) : Reply Badge Unit :=
  let ticking := (Scheduler.empty Scheduler.defaultCapacity period).start defaultPeriod
  let roster : Service.Roster Heartbeat := .empty rosterCapacity .standard
  let started := (roster.startInstalled Key.service false).run Scheduler.registry world ticking.state counters
  let (scheduler, counters) := started.state
  let manager := Power.Manager.idle Key.power power
  let booted : Badge :=
    { scheduler, shared := { manager, sleep := none, roster := started.answer.2, counters } }
  let armed := booted.postpone
  ⟨(), armed.state, ticking.log ++ started.log ++ armed.log ++ Power.notArmed .board armed.answer⟩

def tick (b : Badge) : Reply Badge TickTally :=
  let ticked := b.scheduler.tick SharedState.code b.shared
  ⟨ticked.answer, { scheduler := ticked.state.1, shared := ticked.state.2 }, ticked.log⟩

/-- A pressed button, which puts off idle detection. -/
def press (b : Badge) : Reply Badge (Except RegistryError Handle) := b.postpone

/-- Takes the request for sleep, if there is one, and stops the ticks. -/
def takeSleep (b : Badge) : Reply Badge (Option Power.SleepRequest) :=
  match b.shared.sleep with
  | none => ⟨none, b, []⟩
  | some request =>
    let stopped := b.scheduler.stop
    ⟨some request, { scheduler := stopped.state, shared := { b.shared with sleep := none } }, stopped.log⟩

end Badge
end ConferenceBadge.Board
