import ConferenceBadge.Program
import ConferenceBadge.Scheduler.Pass

/-!
One tick: every task ages by the period, those that are due run in order of registration, their
outcomes take effect, and then the changes asked for meanwhile.
-/
namespace ConferenceBadge

/-- The code of all tasks: what runs for a key, on a state `ρ` that the tasks share. -/
abbrev TaskCode (κ ρ : Type) : Type := κ → ρ → Script κ (Except Fault Outcome × ρ)

/-- What happened in a tick, each count up to 65535. -/
structure TickTally where
  fired : Nat
  rescheduled : Nat
  removed : Nat
  faulted : Nat
deriving DecidableEq

namespace TickTally

/-- The highest count of a tally. -/
def most : Nat := 65535

def none : TickTally := ⟨0, 0, 0, 0⟩

/-- The tally with one more settled task. -/
def counting (r : TickTally) (s : Settlement) : TickTally :=
  let fired := min (r.fired + 1) most
  match s with
  | .again _ => { r with fired, rescheduled := min (r.rescheduled + 1) most }
  | .removed => { r with fired, removed := min (r.removed + 1) most }
  | .faulted => { r with fired, faulted := min (r.faulted + 1) most }

def add (a b : TickTally) : TickTally where
  fired := min (a.fired + b.fired) most
  rescheduled := min (a.rescheduled + b.rescheduled) most
  removed := min (a.removed + b.removed) most
  faulted := min (a.faulted + b.faulted) most

end TickTally

/-- How a run is settled. -/
def Settlement.ofRun : Except Fault Outcome → Settlement
  | .ok outcome =>
    match outcome.delay? with
    | some target => again target
    | none => removed
  | .error _ => faulted

/-- The tick as far as it has come: the pass, what was recorded and counted, and the tasks' state. -/
structure Sweep (κ ρ : Type) where
  pass : Pass κ
  events : EventLog κ
  tally : TickTally
  shared : ρ

namespace Sweep

variable {κ ρ : Type} [ToString κ]

/-- The event that the end of a task leaves. -/
def event? (t : Task κ) : Except Fault Outcome → Option (Event κ)
  | .ok outcome => if outcome.delay?.isNone then some (.completed t.handle t.key) else none
  | .error fault => some (.faulted t.handle t.key fault)

/-- The lines that the end of a task leaves. -/
def lines (t : Task κ) : Except Fault Outcome → List Log.Line
  | .ok outcome =>
    if outcome.delay?.isNone then [Scheduler.line .debug s!"task {t.handle} {t.key} completed"] else []
  | .error fault => [Scheduler.line .warn s!"task {t.handle} {t.key} faulted: {fault.reason}"]

/-- Passes over a task that is not due; `rest` are the tasks after it. -/
def skip (sweep : Sweep κ ρ) (t : Task κ) (rest : List (Task κ)) : Sweep κ ρ :=
  { sweep with pass := sweep.pass.passed ⟨t, none⟩ rest }

/-- Runs a task that is due and settles it; `rest` are the tasks after it. -/
def dispatch (code : TaskCode κ ρ) (uptime : Duration) (sweep : Sweep κ ρ) (t : Task κ)
    (rest : List (Task κ)) : Reply (Sweep κ ρ) Unit :=
  let ran := (code t.key sweep.shared).run Pass.registry { sweep.pass with waiting := t :: rest }
  let result := ran.answer.1
  let settlement := Settlement.ofRun result
  let settled :=
    { pass := ran.state.passed ⟨t, some settlement⟩ rest
      events := (event? t result).elim sweep.events (sweep.events.record uptime)
      tally := sweep.tally.counting settlement
      shared := ran.answer.2 }
  ⟨(), settled, ran.log ++ lines t result⟩

/-- Goes over the tasks in order. -/
def through (code : TaskCode κ ρ) (uptime : Duration) : List (Task κ) → Sweep κ ρ → Reply (Sweep κ ρ) Unit
  | [], sweep => ⟨(), sweep, []⟩
  | t :: rest, sweep =>
    if t.isDue then (sweep.dispatch code uptime t rest).andThen fun _ sweep => through code uptime rest sweep
    else through code uptime rest (sweep.skip t rest)

end Sweep

namespace Scheduler

variable {κ τ ρ : Type} [ToString κ]

/-- Carries out a change once the pass has ended. -/
def carryOut (s : Scheduler κ τ) : Change κ → Reply (Scheduler κ τ) Unit
  | .add task =>
    if s.tasks.length < s.capacity then
      ⟨(), s.recorded (s.tasks ++ [task]) (.added task.handle task.key), []⟩
    else
      ⟨(), s, [line .warn s!"dropping queued task {task.handle} {task.key}: registry full"]⟩
  | .retarget handle target => { s.update handle target with answer := () }
  | .delete handle => { s.delete handle with answer := () }

/-- Carries out changes one after the other. -/
def carryOutAll : List (Change κ) → Scheduler κ τ → Reply (Scheduler κ τ) Unit
  | [], s => ⟨(), s, []⟩
  | change :: rest, s => (s.carryOut change).andThen fun _ s => carryOutAll rest s

/-- What the end of a tick leaves: outcomes take effect first, then the changes. -/
def commit (s : Scheduler κ τ) (p : Pass κ) : Reply (Scheduler κ τ) Unit :=
  carryOutAll p.changes
    { s with tasks := p.entries.filterMap Entry.survivor?, nextHandle := p.nextHandle }

/-- The pass with which a tick over these tasks begins. -/
def begin (s : Scheduler κ τ) (tasks : List (Task κ)) : Pass κ :=
  { capacity := s.capacity, visited := [], waiting := tasks, changes := [], nextHandle := s.nextHandle }

/-- Processes one tick; a stopped scheduler ignores it. -/
def tick (s : Scheduler κ τ) (code : TaskCode κ ρ) (shared : ρ) : Reply (Scheduler κ τ × ρ) TickTally :=
  if s.active then
    let uptime := s.uptime + s.period
    let tasks := s.tasks.map (·.aged s.period)
    let start : Sweep κ ρ := { pass := s.begin tasks, events := s.events, tally := .none, shared }
    let swept := start.through code uptime tasks
    let committed := { s with uptime, events := swept.state.events }.commit swept.state.pass
    ⟨swept.state.tally, (committed.state, swept.state.shared), swept.log ++ committed.log⟩
  else ⟨.none, (s, shared), []⟩

end Scheduler
end ConferenceBadge
