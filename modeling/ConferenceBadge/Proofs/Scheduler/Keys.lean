import ConferenceBadge.Proofs.Scheduler.Places
import Mathlib.Data.List.Basic

/-!
Keys are labels. A scheduler hands them on and never looks at them, so what it does under some keys it
does under others: registries (`Pass.registry_relabel`, `Scheduler.registry_relabel`), outcomes and
changes give the same answers and the same tasks but for their keys.
-/
namespace ConferenceBadge

variable {κ ι τ : Type}

/-- The task under another key. -/
def Task.relabel (f : κ → ι) (t : Task κ) : Task ι :=
  { handle := t.handle, key := f t.key, position := t.position, target := t.target, visibility := t.visibility }

namespace Request

def relabel (f : κ → ι) : Request κ → Request ι
  | add key target visibility => add (f key) target visibility
  | update handle target => update handle target
  | delete handle => delete handle
  | contains handle => contains handle
  | idleTime => idleTime

/-- The kind of answer does not depend on the key. -/
def answerOf {f : κ → ι} : (q : Request κ) → (q.relabel f).Answer → q.Answer
  | add .., answer => answer
  | update .., answer | delete _, answer | contains _, answer => answer
  | idleTime, answer => answer

end Request

/-- The same exchange under another key. -/
def Exchange.relabel (f : κ → ι) : Exchange κ → Exchange ι
  | ⟨.add key target visibility, answer⟩ => ⟨.add (f key) target visibility, answer⟩
  | ⟨.update handle target, answer⟩ => ⟨.update handle target, answer⟩
  | ⟨.delete handle, answer⟩ => ⟨.delete handle, answer⟩
  | ⟨.contains handle, answer⟩ => ⟨.contains handle, answer⟩
  | ⟨.idleTime, answer⟩ => ⟨.idleTime, answer⟩

def Entry.relabel (f : κ → ι) (e : Entry κ) : Entry ι := ⟨e.task.relabel f, e.settlement⟩

def Change.relabel (f : κ → ι) : Change κ → Change ι
  | .add task => .add (task.relabel f)
  | .retarget handle target => .retarget handle target
  | .delete handle => .delete handle

def Event.relabel (f : κ → ι) : Event κ → Event ι
  | .added handle key => .added handle (f key)
  | .retargeted handle target => .retargeted handle target
  | .completed handle key => .completed handle (f key)
  | .faulted handle key fault => .faulted handle (f key) fault
  | .deleted handle => .deleted handle

def EventLog.relabel (f : κ → ι) (log : EventLog κ) : EventLog ι :=
  { capacity := log.capacity
    kept := log.kept.map fun r => ⟨r.seq, r.uptime, r.event.relabel f⟩
    nextSeq := log.nextSeq }

def Pass.relabel (f : κ → ι) (p : Pass κ) : Pass ι :=
  { capacity := p.capacity
    visited := p.visited.map (·.relabel f)
    waiting := p.waiting.map (·.relabel f)
    changes := p.changes.map (·.relabel f)
    nextHandle := p.nextHandle }

def Scheduler.relabel (f : κ → ι) (s : Scheduler κ τ) : Scheduler ι τ :=
  { capacity := s.capacity, timer := s.timer, tasks := s.tasks.map (·.relabel f), period := s.period,
    active := s.active, nextHandle := s.nextHandle, uptime := s.uptime, events := s.events.relabel f }

variable {f : κ → ι}

@[simp] theorem Task.handle_relabel (t : Task κ) : (t.relabel f).handle = t.handle := rfl

theorem Task.idleTime_relabel (tasks : List (Task κ)) :
    Task.idleTime (tasks.map (·.relabel f)) = Task.idleTime tasks := by
  rw [idleTime, List.filter_map, List.foldl_map]
  rfl

theorem Exchange.minted_relabel (e : Exchange κ) : (e.relabel f).minted = e.minted := by
  obtain ⟨q, answer⟩ := e
  cases q with
  | add key target visibility =>
    cases answer with
    | ok handle => rfl
    | error e => cases e <;> rfl
  | update | delete | contains | idleTime => rfl

theorem Exchange.mintedIn_relabel (history : List (Exchange κ)) :
    mintedIn (history.map (·.relabel f)) = mintedIn history := by
  induction history with
  | nil => rfl
  | cons e rest ih => rw [List.map_cons, mintedIn, mintedIn, ih, minted_relabel]

theorem EventLog.record_relabel (log : EventLog κ) (uptime : Duration) (event : Event κ) :
    (log.record uptime event).relabel f = (log.relabel f).record uptime (event.relabel f) := by
  simp [record, relabel]

theorem Entry.survivor?_relabel (e : Entry κ) : (e.relabel f).survivor? = e.survivor?.map (·.relabel f) := by
  obtain ⟨task, settlement⟩ := e
  cases settlement with
  | none => rfl
  | some settlement => cases settlement <;> rfl

theorem Entry.survivors_relabel (entries : List (Entry κ)) :
    (entries.map (·.relabel f)).filterMap survivor? = (entries.filterMap survivor?).map (·.relabel f) := by
  rw [List.filterMap_map, List.map_filterMap]
  exact List.filterMap_congr fun e _ => survivor?_relabel e

namespace Change

theorem added?_relabel (changes : List (Change κ)) :
    (changes.map (·.relabel f)).filterMap added? = (changes.filterMap added?).map (·.relabel f) := by
  rw [List.filterMap_map, List.map_filterMap]
  refine List.filterMap_congr fun c _ => ?_
  cases c <;> rfl

theorem applied?_relabel (t : Task κ) (c : Change κ) :
    applied? (t.relabel f) (c.relabel f) = (applied? t c).map (·.relabel f) := by
  cases c with
  | add task => rfl
  | retarget handle target =>
    by_cases same : handle = t.handle
    · simp only [applied?, relabel, Task.handle_relabel, same, ↓reduceIte]
      rfl
    · simp only [applied?, relabel, Task.handle_relabel, same, ↓reduceIte]
      rfl
  | delete handle =>
    by_cases same : handle = t.handle
    · simp only [applied?, relabel, Task.handle_relabel, same, ↓reduceIte, Option.map_none]
    · simp only [applied?, relabel, Task.handle_relabel, same, ↓reduceIte, Option.map_some]

theorem foldlM_applied?_relabel (changes : List (Change κ)) (t : Task κ) :
    (changes.map (·.relabel f)).foldlM applied? (t.relabel f) = (changes.foldlM applied? t).map (·.relabel f) := by
  induction changes generalizing t with
  | nil => rfl
  | cons c rest ih =>
    rw [List.map_cons, List.foldlM_cons, List.foldlM_cons, applied?_relabel]
    cases applied? t c with
    | none => rfl
    | some after => exact ih after

end Change

namespace Pass

theorem entries_relabel (p : Pass κ) : (p.relabel f).entries = p.entries.map (·.relabel f) := by
  simp [entries, relabel, Entry.relabel]

theorem survivors_relabel (p : Pass κ) : (p.relabel f).survivors = p.survivors.map (·.relabel f) := by
  simp only [survivors, entries_relabel, Entry.survivors_relabel]
  rw [show (p.relabel f).changes = p.changes.map (·.relabel f) from rfl, Change.added?_relabel, ← List.map_append,
    List.filterMap_map, List.map_filterMap]
  exact List.filterMap_congr fun t _ => Change.foldlM_applied?_relabel p.changes t

theorem contains_relabel (p : Pass κ) (handle : Handle) : (p.relabel f).contains handle = p.contains handle := by
  rw [contains, survivors_relabel, List.any_map]
  rfl

theorem occupied_relabel (p : Pass κ) : (p.relabel f).occupied = p.occupied := by
  rw [occupied, entries_relabel, Entry.survivors_relabel,
    show (p.relabel f).changes = p.changes.map (·.relabel f) from rfl, Change.added?_relabel, List.length_map,
    List.length_map]
  rfl

theorem hasRoom_relabel (p : Pass κ) : (p.relabel f).hasRoom = p.hasRoom := by
  simp only [hasRoom, relabel, List.length_map]

theorem enqueue_relabel (p : Pass κ) (c : Change κ) : (p.enqueue c).relabel f = (p.relabel f).enqueue (c.relabel f) := by
  simp only [enqueue, relabel, List.map_append, List.map_cons, List.map_nil]

theorem passed_relabel (p : Pass κ) (e : Entry κ) (rest : List (Task κ)) :
    (p.passed e rest).relabel f = (p.relabel f).passed (e.relabel f) (rest.map (·.relabel f)) := by
  simp only [passed, relabel, List.map_append, List.map_cons, List.map_nil]

theorem enqueueFor_relabel (p : Pass κ) (handle : Handle) (c : Change κ) :
    ((p.relabel f).enqueueFor handle (c.relabel f)).answer = (p.enqueueFor handle c).answer ∧
      ((p.relabel f).enqueueFor handle (c.relabel f)).state = (p.enqueueFor handle c).state.relabel f := by
  simp only [enqueueFor, contains_relabel, hasRoom_relabel]
  split
  · split
    · exact ⟨rfl, (enqueue_relabel p c).symm⟩
    · exact ⟨rfl, rfl⟩
  · exact ⟨rfl, rfl⟩

variable [ToString κ] [ToString ι]

/-- A tick in progress answers requests alike, whatever the keys. -/
theorem registry_relabel {g : ι → κ} (inverse : ∀ i, f (g i) = i) (q : Request ι) (p : Pass κ) :
    q.answerOf (registry (q.relabel g) p).answer = (registry q (p.relabel f)).answer ∧
      (registry (q.relabel g) p).state.relabel f = (registry q (p.relabel f)).state := by
  cases q with
  | add key target visibility =>
    simp only [Request.relabel, Request.answerOf, registry, add, occupied_relabel, hasRoom_relabel]
    rw [show (p.relabel f).capacity = p.capacity from rfl]
    split
    · split
      · refine ⟨rfl, ?_⟩
        rw [enqueue_relabel, Change.relabel, Task.relabel, Task.fresh, inverse]
        rfl
      · exact ⟨rfl, rfl⟩
    · exact ⟨rfl, rfl⟩
  | update handle target =>
    obtain ⟨answer, state⟩ := p.enqueueFor_relabel (f := f) handle (.retarget handle target)
    exact ⟨answer.symm, state.symm⟩
  | delete handle =>
    obtain ⟨answer, state⟩ := p.enqueueFor_relabel (f := f) handle (.delete handle)
    exact ⟨answer.symm, state.symm⟩
  | contains handle => exact ⟨(p.contains_relabel handle).symm, rfl⟩
  | idleTime =>
    refine ⟨?_, rfl⟩
    simp only [Request.relabel, Request.answerOf, registry, idleTime, survivors_relabel, Task.idleTime_relabel]

end Pass

namespace Scheduler

theorem find?_relabel (s : Scheduler κ τ) (handle : Handle) :
    (s.relabel f).find? handle = (s.find? handle).map (·.relabel f) := by
  rw [find?, find?, relabel, List.find?_map]
  rfl

theorem contains_relabel (s : Scheduler κ τ) (handle : Handle) : (s.relabel f).contains handle = s.contains handle := by
  rw [contains, find?_relabel, Option.isSome_map]
  rfl

theorem restartFirst_relabel (handle : Handle) (target : Duration) (tasks : List (Task κ)) :
    restartFirst handle target (tasks.map (·.relabel f)) = (restartFirst handle target tasks).map (·.relabel f) := by
  induction tasks with
  | nil => rfl
  | cons t rest ih =>
    rw [List.map_cons, restartFirst, restartFirst, Task.handle_relabel]
    by_cases same : t.handle = handle
    · simp only [same, ↓reduceIte, List.map_cons]
      rfl
    · simp only [same, ↓reduceIte, List.map_cons, ih]

theorem dropFirst_relabel (handle : Handle) (tasks : List (Task κ)) :
    dropFirst handle (tasks.map (·.relabel f)) = (dropFirst handle tasks).map (·.relabel f) := by
  rw [dropFirst, List.eraseP_map]
  rfl

theorem recorded_relabel (s : Scheduler κ τ) (tasks : List (Task κ)) (event : Event κ) :
    (s.recorded tasks event).relabel f = (s.relabel f).recorded (tasks.map (·.relabel f)) (event.relabel f) := by
  simp only [recorded, relabel, EventLog.record_relabel]

theorem update_relabel (s : Scheduler κ τ) (handle : Handle) (target : Duration) :
    ((s.relabel f).update handle target).answer = (s.update handle target).answer ∧
      ((s.relabel f).update handle target).state = (s.update handle target).state.relabel f := by
  simp only [update, contains_relabel]
  split
  · refine ⟨rfl, ?_⟩
    rw [recorded_relabel, ← restartFirst_relabel]
    rfl
  · exact ⟨rfl, rfl⟩

variable [ToString κ] [ToString ι]

theorem delete_relabel (s : Scheduler κ τ) (handle : Handle) :
    ((s.relabel f).delete handle).answer = (s.delete handle).answer ∧
      ((s.relabel f).delete handle).state = (s.delete handle).state.relabel f := by
  simp only [delete, find?_relabel]
  cases s.find? handle with
  | none => exact ⟨rfl, rfl⟩
  | some task =>
    refine ⟨rfl, ?_⟩
    simp only [Option.map_some]
    rw [recorded_relabel, ← dropFirst_relabel]
    rfl

/-- Between ticks requests are answered alike, whatever the keys. -/
theorem registry_relabel {g : ι → κ} (inverse : ∀ i, f (g i) = i) (q : Request ι) (s : Scheduler κ τ) :
    q.answerOf (registry (q.relabel g) s).answer = (registry q (s.relabel f)).answer ∧
      (registry (q.relabel g) s).state.relabel f = (registry q (s.relabel f)).state := by
  cases q with
  | add key target visibility =>
    have taken : (s.relabel f).tasks.length = s.tasks.length := by simp only [relabel, List.length_map]
    simp only [Request.relabel, Request.answerOf, registry, add, taken]
    rw [show (s.relabel f).capacity = s.capacity from rfl]
    split
    · refine ⟨rfl, ?_⟩
      have task : (Task.fresh s.nextHandle (g key) target visibility).relabel f =
          .fresh s.nextHandle key target visibility := by
        rw [Task.relabel, Task.fresh, inverse]
        rfl
      have event : (Event.added s.nextHandle (g key)).relabel f = .added s.nextHandle key := by
        rw [Event.relabel, inverse]
      have both := s.recorded_relabel (f := f) (s.tasks ++ [.fresh s.nextHandle (g key) target visibility])
        (.added s.nextHandle (g key))
      rw [List.map_append, List.map_singleton, task, event] at both
      exact congrArg (fun after : Scheduler ι τ => { after with nextHandle := s.nextHandle.next }) both
    · exact ⟨rfl, rfl⟩
  | update handle target =>
    obtain ⟨answer, state⟩ := s.update_relabel (f := f) handle target
    exact ⟨answer.symm, state.symm⟩
  | delete handle =>
    obtain ⟨answer, state⟩ := s.delete_relabel (f := f) handle
    exact ⟨answer.symm, state.symm⟩
  | contains handle => exact ⟨(s.contains_relabel handle).symm, rfl⟩
  | idleTime => exact ⟨(Task.idleTime_relabel s.tasks).symm, rfl⟩

theorem carryOut_relabel (s : Scheduler κ τ) (c : Change κ) :
    ((s.relabel f).carryOut (c.relabel f)).state = (s.carryOut c).state.relabel f := by
  cases c with
  | add task =>
    have taken : (s.relabel f).tasks.length = s.tasks.length := by simp only [relabel, List.length_map]
    simp only [carryOut, Change.relabel, taken]
    rw [show (s.relabel f).capacity = s.capacity from rfl]
    split
    · have both := s.recorded_relabel (f := f) (s.tasks ++ [task]) (.added task.handle task.key)
      rw [List.map_append, List.map_singleton] at both
      exact both.symm
    · rfl
  | retarget handle target => exact (s.update_relabel handle target).2
  | delete handle => exact (s.delete_relabel handle).2

/-- Changes are carried out alike, whatever the keys. -/
theorem carryOutAll_relabel (changes : List (Change κ)) (s : Scheduler κ τ) :
    (carryOutAll (changes.map (·.relabel f)) (s.relabel f)).state = (carryOutAll changes s).state.relabel f := by
  induction changes generalizing s with
  | nil => rfl
  | cons c rest ih =>
    simp only [List.map_cons, carryOutAll, Reply.andThen]
    rw [carryOut_relabel, ih]

/-- The end of a tick leaves the same, whatever the keys. -/
theorem commit_relabel (s : Scheduler κ τ) (p : Pass κ) :
    ((s.relabel f).commit (p.relabel f)).state = (s.commit p).state.relabel f := by
  simp only [commit, Pass.entries_relabel, Entry.survivors_relabel]
  exact carryOutAll_relabel p.changes
    { s with tasks := p.entries.filterMap Entry.survivor?, nextHandle := p.nextHandle }

end Scheduler
end ConferenceBadge
