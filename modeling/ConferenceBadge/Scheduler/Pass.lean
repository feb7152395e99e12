import ConferenceBadge.Scheduler.Basic

/-!
A tick in progress: the tasks as they were when it began, what became of those that have run, and
the changes asked for meanwhile. Changes wait until every due task has run. A task asking the pass
sees the registry that the tick would leave if it ended now (`survivors`).
-/
namespace ConferenceBadge

/-- What became of a task that has run. -/
inductive Settlement where
  /-- it waits again, for a new target -/
  | again (target : Duration)
  /-- it asked to be removed -/
  | removed
  /-- it failed -/
  | faulted
deriving DecidableEq

/-- A task passed by the tick; it has run if there is a settlement. -/
structure Entry (κ : Type) where
  task : Task κ
  settlement : Option Settlement
deriving DecidableEq

/-- What is left of a task once the tick has settled it. -/
def Entry.survivor? {κ : Type} (e : Entry κ) : Option (Task κ) :=
  match e.settlement with
  | none => some e.task
  | some (.again target) => some (e.task.restarted target)
  | some .removed | some .faulted => none

/-- A change asked for while a tick is in progress. -/
inductive Change (κ : Type) where
  | add (task : Task κ)
  | retarget (handle : Handle) (target : Duration)
  | delete (handle : Handle)
deriving DecidableEq

namespace Change

variable {κ : Type}

/-- The task that a change registers. -/
def added? : Change κ → Option (Task κ)
  | add task => some task
  | _ => none

/-- What a change leaves of one task. -/
def applied? (t : Task κ) : Change κ → Option (Task κ)
  | add _ => some t
  | retarget handle target => some (if handle = t.handle then t.restarted target else t)
  | delete handle => if handle = t.handle then none else some t

end Change

/-- A tick in progress. -/
structure Pass (κ : Type) where
  /-- how many tasks the registry has room for -/
  capacity : Nat
  /-- the tasks that the tick has passed, in order -/
  visited : List (Entry κ)
  /-- the task that is running and those after it -/
  waiting : List (Task κ)
  /-- the changes asked for so far, in order -/
  changes : List (Change κ)
  nextHandle : Handle

namespace Pass

variable {κ : Type}

def changeCapacity : Nat := 16

/-- All tasks of the tick in order. -/
def entries (p : Pass κ) : List (Entry κ) := p.visited ++ p.waiting.map fun t => ⟨t, none⟩

/-- The pass once it has passed a task; `rest` are the tasks after it. -/
def passed (p : Pass κ) (e : Entry κ) (rest : List (Task κ)) : Pass κ :=
  { p with visited := p.visited ++ [e], waiting := rest }

/-- The tasks left if the tick ended now: those not settled away and those added, each after every
change that names it. -/
def survivors (p : Pass κ) : List (Task κ) :=
  (p.entries.filterMap Entry.survivor? ++ p.changes.filterMap Change.added?).filterMap fun t =>
    p.changes.foldlM Change.applied? t

/-- Passing a task leaves the tasks of the tick as they are. -/
theorem tasks_passed {p : Pass κ} {t : Task κ} {rest : List (Task κ)} (first : p.waiting = t :: rest)
    (settlement : Option Settlement) :
    (p.passed ⟨t, settlement⟩ rest).entries.map (·.task) = p.entries.map (·.task) := by
  simp [entries, passed, first]

/-- Without changes the survivors are what the outcomes leave. -/
theorem survivors_eq {p : Pass κ} (none : p.changes = []) :
    p.survivors = p.entries.filterMap Entry.survivor? := by
  simp [survivors, none]

/-- Whether a handle names a task that is left. -/
def contains (p : Pass κ) (handle : Handle) : Bool := p.survivors.any fun t => t.handle = handle

theorem contains_iff {p : Pass κ} {handle : Handle} :
    p.contains handle ↔ handle ∈ p.survivors.map (·.handle) := by
  simp [contains]

/-- The places taken: tasks that have not settled away, and tasks added, whether or not deleted
since. -/
def occupied (p : Pass κ) : Nat :=
  (p.entries.filterMap Entry.survivor?).length + (p.changes.filterMap Change.added?).length

def hasRoom (p : Pass κ) : Bool := p.changes.length < changeCapacity

def enqueue (p : Pass κ) (change : Change κ) : Pass κ := { p with changes := p.changes ++ [change] }

/-- Asks for a task to be registered. A handle is given out even where the change does not fit. -/
def add [ToString κ] (p : Pass κ) (key : κ) (target : Duration) (visibility : Visibility) :
    Reply (Pass κ) (Except RegistryError Handle) :=
  if p.occupied < p.capacity then
    let handle := p.nextHandle
    let minted := { p with nextHandle := handle.next }
    if p.hasRoom then
      ⟨.ok handle, minted.enqueue (.add (.fresh handle key target visibility)),
        [Scheduler.line .debug s!"task {handle} {key} queued for {target.text}"]⟩
    else ⟨.error .changesetFull, minted, []⟩
  else ⟨.error .registryFull, p, []⟩

/-- Asks for a change to a task that is left. -/
def enqueueFor (p : Pass κ) (handle : Handle) (change : Change κ) : Reply (Pass κ) Bool :=
  if p.contains handle then
    if p.hasRoom then ⟨true, p.enqueue change, []⟩
    else
      let refusal := RegistryError.changesetFull.message
      ⟨false, p, [Scheduler.line .warn s!"request for task {handle} dropped: {refusal}"]⟩
  else ⟨false, p, []⟩

/-- The time until the next visible task is due. -/
def idleTime (p : Pass κ) : IdleTime := Task.idleTime p.survivors

def registry [ToString κ] : Registry κ (Pass κ)
  | .add key target visibility, p => p.add key target visibility
  | .update handle target, p => p.enqueueFor handle (.retarget handle target)
  | .delete handle, p => p.enqueueFor handle (.delete handle)
  | .contains handle, p => ⟨p.contains handle, p, []⟩
  | .idleTime, p => ⟨p.idleTime, p, []⟩

end Pass
end ConferenceBadge
