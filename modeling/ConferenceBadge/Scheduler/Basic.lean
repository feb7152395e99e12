import ConferenceBadge.EventLog
import ConferenceBadge.Registry

/-!
The scheduler between ticks: the registered tasks in order of registration, the tick timer, the
uptime and the event log. It is a registry of its own: a refused request leaves it as it was.
-/
namespace ConferenceBadge

/-- A timer that can be told to deliver ticks. -/
class TickTimer (τ : Type) where
  /-- deliver ticks at this period from now on -/
  start : τ → Duration → τ
  /-- deliver no more ticks -/
  stop : τ → τ

/-- The registered tasks and the time they live in. -/
structure Scheduler (κ τ : Type) where
  /-- how many tasks there is room for -/
  capacity : Nat
  timer : τ
  tasks : List (Task κ)
  period : Duration
  active : Bool
  nextHandle : Handle
  /-- the sum of the periods of all processed ticks -/
  uptime : Duration
  events : EventLog κ

namespace Scheduler

variable {κ τ : Type}

/-- How many tasks a scheduler has room for unless told otherwise. -/
def defaultCapacity : Nat := 16

def eventCapacity : Nat := 32

/-- The shortest period at which ticks can be delivered. -/
def shortestPeriod : Duration := .ofMillis 1

def empty (capacity : Nat) (timer : τ) : Scheduler κ τ :=
  { capacity, timer, tasks := [], period := .zero, active := false, nextHandle := .first,
    uptime := .zero, events := .empty eventCapacity }

def line (level : Log.Level) (text : String) : Log.Line := ⟨level, .scheduler, text⟩

/-- Starts or restarts the tick timer; a period that is too short is refused and changes nothing. -/
def start [TickTimer τ] (s : Scheduler κ τ) (period : Duration) : Reply (Scheduler κ τ) Bool :=
  if period < shortestPeriod then
    ⟨false, s, [line .warn s!"ignoring tick period of {period.micros}us"]⟩
  else
    ⟨true, { s with timer := TickTimer.start s.timer period, period, active := true },
      [line .info s!"scheduler ticking every {period.text}"]⟩

/-- Stops the tick timer; the tasks stay. -/
def stop [TickTimer τ] (s : Scheduler κ τ) : Reply (Scheduler κ τ) Unit :=
  ⟨(), { s with timer := TickTimer.stop s.timer, active := false },
    [line .info s!"scheduler stopped with {s.tasks.length} tasks"]⟩

def find? (s : Scheduler κ τ) (handle : Handle) : Option (Task κ) :=
  s.tasks.find? fun t => t.handle = handle

/-- Whether there is a task with a handle. -/
def contains (s : Scheduler κ τ) (handle : Handle) : Bool := (s.find? handle).isSome

/-- The handle of the first task registered under a key. -/
def firstWithKey? [DecidableEq κ] (s : Scheduler κ τ) (key : κ) : Option Handle :=
  (s.tasks.find? fun t => t.key = key).map (·.handle)

/-- The time until the next visible task is due. -/
def idleTime (s : Scheduler κ τ) : IdleTime := Task.idleTime s.tasks

/-- The scheduler after an event that left these tasks. -/
def recorded (s : Scheduler κ τ) (tasks : List (Task κ)) (event : Event κ) : Scheduler κ τ :=
  { s with tasks, events := s.events.record s.uptime event }

/-- The tasks with the first one of a handle re-armed. -/
def restartFirst (handle : Handle) (target : Duration) : List (Task κ) → List (Task κ)
  | [] => []
  | t :: rest => if t.handle = handle then t.restarted target :: rest else t :: restartFirst handle target rest

/-- The tasks without the first one of a handle. -/
def dropFirst (handle : Handle) (tasks : List (Task κ)) : List (Task κ) :=
  tasks.eraseP fun t => t.handle = handle

theorem contains_iff {s : Scheduler κ τ} {handle : Handle} :
    s.contains handle ↔ handle ∈ s.tasks.map (·.handle) := by
  simp [contains, find?, List.find?_isSome]

theorem handles_restartFirst (handle : Handle) (target : Duration) (tasks : List (Task κ)) :
    (restartFirst handle target tasks).map (·.handle) = tasks.map (·.handle) := by
  induction tasks with
  | nil => rfl
  | cons t rest ih =>
    rw [restartFirst]
    split
    · rfl
    · simp only [List.map_cons, ih]

theorem dropFirst_sublist (handle : Handle) (tasks : List (Task κ)) :
    (dropFirst handle tasks).Sublist tasks := List.eraseP_sublist

/-- Registers a task, unless every place is taken. -/
def add [ToString κ] (s : Scheduler κ τ) (key : κ) (target : Duration) (visibility : Visibility) :
    Reply (Scheduler κ τ) (Except RegistryError Handle) :=
  if s.tasks.length < s.capacity then
    let handle := s.nextHandle
    let tasks := s.tasks ++ [Task.fresh handle key target visibility]
    ⟨.ok handle, { s.recorded tasks (.added handle key) with nextHandle := handle.next },
      [line .debug s!"task {handle} {key} registered for {target.text}"]⟩
  else
    ⟨.error .registryFull, s, [line .warn s!"cannot register {key}: registry full"]⟩

/-- Gives a task a new target, its waiting started over. -/
def update (s : Scheduler κ τ) (handle : Handle) (target : Duration) : Reply (Scheduler κ τ) Bool :=
  if s.contains handle then
    ⟨true, s.recorded (restartFirst handle target s.tasks) (.retargeted handle target), []⟩
  else ⟨false, s, []⟩

def delete [ToString κ] (s : Scheduler κ τ) (handle : Handle) : Reply (Scheduler κ τ) Bool :=
  match s.find? handle with
  | some task =>
    ⟨true, s.recorded (dropFirst handle s.tasks) (.deleted handle),
      [line .debug s!"task {handle} {task.key} deleted"]⟩
  | none => ⟨false, s, []⟩

def registry [ToString κ] : Registry κ (Scheduler κ τ)
  | .add key target visibility, s => s.add key target visibility
  | .update handle target, s => s.update handle target
  | .delete handle, s => s.delete handle
  | .contains handle, s => ⟨s.contains handle, s, []⟩
  | .idleTime, s => ⟨s.idleTime, s, []⟩

end Scheduler
end ConferenceBadge
