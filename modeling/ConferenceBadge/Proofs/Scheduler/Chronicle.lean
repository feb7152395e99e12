import ConferenceBadge.Proofs.EventLog
import ConferenceBadge.Proofs.Scheduler.Dispatch
import ConferenceBadge.Proofs.Scheduler.View

/-!
What a run records. Its chronicle lists every event with the uptime at which it happened, whether or
not the log still keeps it: runs with other logs record the same (`run_logging`). Replayed from nothing
it leaves the registrations that there are, in order (`replays_run`); and no handle is added twice while
there are handles left (`added_run`).
-/
namespace ConferenceBadge

variable {κ τ ρ : Type}

/-- What an event log knows of a task. -/
def Task.registration (t : Task κ) : Handle × κ := (t.handle, t.key)

namespace Exchange

/-- The handle given out with an accepted registration. -/
def given? : Exchange κ → Option Handle
  | ⟨.add .., .ok handle⟩ => some handle
  | _ => none

theorem filterMap_given? (history : List (Exchange κ)) :
    ((history.filterMap change?).filterMap Change.added?).map (·.handle) = history.filterMap given? := by
  rw [List.filterMap_filterMap, List.map_filterMap]
  refine List.filterMap_congr fun e _ => ?_
  obtain ⟨q, answer⟩ := e
  cases q with
  | add key target visibility => cases answer <;> rfl
  | update handle target => cases answer <;> rfl
  | delete handle => cases answer <;> rfl
  | contains handle => rfl
  | idleTime => rfl

/-- The handles that a history gives out are new, each a number past the first `n`. -/
structure Fresh (n : Nat) (history : List (Exchange κ)) : Prop where
  once : (history.filterMap given?).Nodup
  later : ∀ h ∈ history.filterMap given?, n < h.id.toNat
  counted : ∀ h ∈ history.filterMap given?, h.id.toNat ≤ n + mintedIn history

theorem Fresh.none (n : Nat) : Fresh n ([] : List (Exchange κ)) :=
  ⟨List.nodup_nil, fun _ member => absurd member List.not_mem_nil, fun _ member => absurd member List.not_mem_nil⟩

theorem Fresh.append {n : Nat} {earlier later : List (Exchange κ)} (first : Fresh n earlier)
    (rest : Fresh (n + mintedIn earlier) later) : Fresh n (earlier ++ later) := by
  refine ⟨?_, ?_, ?_⟩
  · rw [List.filterMap_append]
    refine List.nodup_append.mpr ⟨first.once, rest.once, ?_⟩
    rintro h old _ new rfl
    exact Nat.not_lt.mpr (first.counted h old) (rest.later h new)
  · intro h member
    rw [List.filterMap_append, List.mem_append] at member
    rcases member with old | new
    · exact first.later h old
    · exact Nat.lt_of_le_of_lt (Nat.le_add_right n _) (rest.later h new)
  · intro h member
    rw [List.filterMap_append, List.mem_append] at member
    rw [mintedIn_append, ← Nat.add_assoc]
    rcases member with old | new
    · exact Nat.le_trans (first.counted h old) (Nat.le_add_right _ _)
    · exact rest.counted h new

theorem Fresh.one {n : Nat} {e : Exchange κ} (next : ∀ h, e.given? = some h → h.id.toNat = n + 1) : Fresh n [e] := by
  cases given : e.given? with
  | none =>
    have nothing : [e].filterMap given? = [] := by rw [List.filterMap_cons_none given, List.filterMap_nil]
    refine ⟨?_, ?_, ?_⟩
    · exact nothing ▸ List.nodup_nil
    · exact nothing ▸ fun _ member => absurd member List.not_mem_nil
    · exact nothing ▸ fun _ member => absurd member List.not_mem_nil
  | some handle =>
    have only : [e].filterMap given? = [handle] := by rw [List.filterMap_cons_some given, List.filterMap_nil]
    have minted : mintedIn [e] = 1 := by
      rw [mintedIn_singleton]
      unfold given? at given
      split at given
      · rfl
      · contradiction
    have number := next handle given
    refine ⟨?_, ?_, ?_⟩
    · exact only ▸ List.nodup_singleton _
    · rw [only]
      rintro h member
      rw [List.mem_singleton.mp member]
      omega
    · rw [only]
      rintro h member
      rw [List.mem_singleton.mp member]
      omega

end Exchange

namespace Pass

/-- The registrations of a tick in progress: of the tasks that it has settled and kept, and of those
that wait. -/
def registrations (p : Pass κ) : List (Handle × κ) :=
  (p.visited.filterMap Entry.survivor?).map Task.registration ++ p.waiting.map Task.registration

theorem registrations_entries (p : Pass κ) :
    (p.entries.filterMap Entry.survivor?).map Task.registration = p.registrations := by
  simp [entries, registrations, List.filterMap_map, Function.comp_def, Entry.survivor?]

theorem registrations_passed (p : Pass κ) (e : Entry κ) (rest : List (Task κ)) :
    (p.passed e rest).registrations = (p.visited.filterMap Entry.survivor?).map Task.registration ++
      (e.survivor?.map Task.registration).toList ++ rest.map Task.registration := by
  simp only [registrations, passed, List.filterMap_append, List.map_append]
  cases left : e.survivor? with
  | none => rw [List.filterMap_cons_none left]; rfl
  | some after => rw [List.filterMap_cons_some left]; rfl

theorem given_registry [ToString κ] {q : Request κ} {p : Pass κ} {handle : Handle}
    (given : Exchange.given? ⟨q, (registry q p).answer⟩ = some handle) : handle = p.nextHandle := by
  cases q with
  | add key target visibility =>
    cases accepted : (registry (.add key target visibility) p).answer with
    | ok handle =>
      rw [accepted] at given
      exact (Option.some.inj given).symm.trans (handle_of_accepted accepted)
    | error e =>
      rw [accepted] at given
      contradiction
  | update | delete | contains | idleTime => contradiction

theorem Sound.fresh_underway [ToString κ] {n : Nat} {first p : Pass κ} {history : List (Exchange κ)}
    (sound : first.Sound n) (run : first.Underway history p) (few : n + Exchange.mintedIn history < Handle.numbers) :
    Exchange.Fresh n history := by
  induction run with
  | begun => exact .none n
  | @asked history p q earlier ih =>
    rw [Exchange.mintedIn_append, ← Nat.add_assoc] at few
    refine (ih (by omega)).append (.one fun h given => ?_)
    have next := (sound.underway earlier (by omega)).next
    rw [given_registry given]
    exact next
  | skipped earlier head early ih => exact ih few
  | settled settlement earlier head due ih => exact ih few

end Pass

namespace Sweep

/-- The end of a run leaves an event exactly where the task goes. -/
theorem replays_event? (t : Task κ) (result : Except Fault Outcome) (before after : List (Handle × κ)) :
    Event.ReplaysAll (event? t result).toList (before ++ t.registration :: after)
      (before ++ ((Entry.survivor? ⟨t, some (.ofRun result)⟩).map Task.registration).toList ++ after) := by
  have gone {e : Event κ} (gone : e.removed? = some t.handle) :
      Event.ReplaysAll [e] (before ++ t.registration :: after) (before ++ [] ++ after) := by
    rw [List.append_nil]
    exact (Event.Replays.removed gone before t.key after).all
  cases result with
  | error fault => exact gone rfl
  | ok outcome =>
    cases wanted : outcome.delay? with
    | none =>
      simp only [event?, Settlement.ofRun, wanted, Option.isNone_none, ↓reduceIte]
      exact gone rfl
    | some target =>
      simp only [event?, Settlement.ofRun, wanted, Option.isNone_some, Bool.false_eq_true, ↓reduceIte]
      have same : before ++ t.registration :: after = before ++ [t.registration] ++ after := by simp
      exact same ▸ .none _

variable [ToString κ]

/-- How the run of the next task in a sweep ends. -/
def ending (code : TaskCode κ ρ) (sweep : Sweep κ ρ) (t : Task κ) (rest : List (Task κ)) : Except Fault Outcome :=
  ((code t.key sweep.shared).run Pass.registry { sweep.pass with waiting := t :: rest }).answer.1

/-- The events that the tasks of a tick leave by how their runs end. -/
def endings (code : TaskCode κ ρ) (uptime : Duration) : List (Task κ) → Sweep κ ρ → List (Event κ)
  | [], _ => []
  | t :: rest, sweep =>
    if t.isDue then
      (event? t (sweep.ending code t rest)).toList ++ endings code uptime rest (sweep.dispatch code uptime t rest).state
    else endings code uptime rest (sweep.skip t rest)

/-- The sweep with another log. -/
def logging (sweep : Sweep κ ρ) (log : EventLog κ) : Sweep κ ρ := { sweep with events := log }

theorem dispatch_logging (code : TaskCode κ ρ) (uptime : Duration) (sweep : Sweep κ ρ) (log : EventLog κ) (t : Task κ)
    (rest : List (Task κ)) :
    ((sweep.logging log).dispatch code uptime t rest).state =
      (sweep.dispatch code uptime t rest).state.logging
        (log.recordAll ((event? t (sweep.ending code t rest)).toList.map (uptime, ·))) := by
  have same : (sweep.logging log).ending code t rest = sweep.ending code t rest := rfl
  have recorded : ((sweep.logging log).dispatch code uptime t rest).state =
      (sweep.dispatch code uptime t rest).state.logging
        ((event? t ((sweep.logging log).ending code t rest)).elim log (log.record uptime)) := rfl
  rw [recorded, same]
  cases event? t (sweep.ending code t rest) with
  | none => rfl
  | some e => rfl

/-- A sweep with another log does the same, and records its events there. -/
theorem through_logging (code : TaskCode κ ρ) (uptime : Duration) (tasks : List (Task κ)) (sweep : Sweep κ ρ)
    (log : EventLog κ) :
    (through code uptime tasks (sweep.logging log)).state =
      (through code uptime tasks sweep).state.logging
        (log.recordAll ((endings code uptime tasks sweep).map (uptime, ·))) := by
  induction tasks generalizing sweep log with
  | nil => rfl
  | cons t rest ih =>
    by_cases due : t.isDue
    · simp only [through, endings, due, ↓reduceIte, Reply.andThen, List.map_append, EventLog.recordAll_append]
      rw [dispatch_logging, ih]
    · simp only [through, endings, due, Bool.false_eq_true, ↓reduceIte]
      exact ih (sweep.skip t rest) log

/-- The events of a sweep are replayed on the registrations of its tick. -/
theorem replays_through (code : TaskCode κ ρ) (uptime : Duration) {tasks : List (Task κ)} (sweep : Sweep κ ρ)
    (ahead : sweep.pass.waiting = tasks) :
    Event.ReplaysAll (endings code uptime tasks sweep) sweep.pass.registrations
      (through code uptime tasks sweep).state.pass.registrations := by
  induction tasks generalizing sweep with
  | nil => exact .none _
  | cons t rest ih =>
    have live : sweep.pass.registrations = (sweep.pass.visited.filterMap Entry.survivor?).map Task.registration ++
        t.registration :: rest.map Task.registration := by
      rw [Pass.registrations, ahead, List.map_cons]
    by_cases due : t.isDue
    · simp only [through, endings, due, ↓reduceIte, Reply.andThen]
      refine Event.ReplaysAll.append ?_ (ih _ rfl)
      have visited := (Pass.run_frame (code t.key sweep.shared) { sweep.pass with waiting := t :: rest }).2.1
      rw [live, dispatch, Pass.registrations_passed, visited]
      exact replays_event? t _ _ _
    · simp only [through, endings, due, Bool.false_eq_true, ↓reduceIte]
      have same : (sweep.skip t rest).pass.registrations = sweep.pass.registrations := by
        rw [live, skip, Pass.registrations_passed, List.append_assoc]
        rfl
      exact same ▸ ih _ rfl

theorem added?_endings (code : TaskCode κ ρ) (uptime : Duration) (tasks : List (Task κ)) (sweep : Sweep κ ρ) :
    (endings code uptime tasks sweep).filterMap Event.added? = [] := by
  induction tasks generalizing sweep with
  | nil => rfl
  | cons t rest ih =>
    by_cases due : t.isDue
    · have removal : (event? t (sweep.ending code t rest)).toList.filterMap Event.added? = [] := by
        cases sweep.ending code t rest with
        | error fault => rfl
        | ok outcome =>
          simp only [event?]
          split <;> rfl
      simp only [endings, due, ↓reduceIte, List.filterMap_append, removal, ih, List.append_nil]
    · simp only [endings, due, Bool.false_eq_true, ↓reduceIte, ih]

end Sweep

namespace Scheduler

/-- The registrations that there are, in order. -/
def registrations (s : Scheduler κ τ) : List (Handle × κ) := s.tasks.map Task.registration

/-- The sweep with which a tick begins. -/
def firstSweep (s : Scheduler κ τ) (shared : ρ) : Sweep κ ρ :=
  { pass := s.firstPass, events := s.events, tally := .none, shared }

/-- The scheduler with another log. -/
def logging (s : Scheduler κ τ) (log : EventLog κ) : Scheduler κ τ := { s with events := log }

/-- The event that a change leaves if it takes effect. -/
def effect? (s : Scheduler κ τ) : Change κ → Option (Event κ)
  | .add task => if s.tasks.length < s.capacity then some (.added task.handle task.key) else none
  | .retarget handle target => if s.contains handle then some (.retargeted handle target) else none
  | .delete handle => if s.contains handle then some (.deleted handle) else none

theorem registrations_restartFirst (handle : Handle) (target : Duration) (tasks : List (Task κ)) :
    (restartFirst handle target tasks).map Task.registration = tasks.map Task.registration := by
  induction tasks with
  | nil => rfl
  | cons t rest ih =>
    rw [restartFirst]
    split
    · rfl
    · rw [List.map_cons, List.map_cons, ih]

/-- Dropping the first task of a handle removes one registration. -/
theorem replays_dropFirst {handle : Handle} {tasks : List (Task κ)} (there : handle ∈ tasks.map (·.handle)) :
    Event.Replays (.deleted handle) (tasks.map Task.registration) ((dropFirst handle tasks).map Task.registration) := by
  obtain ⟨t, member, named⟩ := List.mem_map.mp there
  obtain ⟨gone, before, after, -, found, parts, left⟩ :=
    List.exists_of_eraseP (p := fun t => decide (t.handle = handle)) member (decide_eq_true named)
  have removed : (Event.deleted handle : Event κ).removed? = some gone.handle := by
    rw [of_decide_eq_true found]
    rfl
  rw [dropFirst, left, parts, List.map_append, List.map_append, List.map_cons]
  exact .removed removed _ gone.key _

variable [ToString κ]

/-- The events of changes that are carried out one after the other. -/
def effects : List (Change κ) → Scheduler κ τ → List (Event κ)
  | [], _ => []
  | c :: rest, s => (s.effect? c).toList ++ effects rest (s.carryOut c).state

theorem uptime_carryOut (s : Scheduler κ τ) (c : Change κ) : (s.carryOut c).state.uptime = s.uptime := by
  cases c with
  | add task =>
    simp only [carryOut]
    split <;> rfl
  | retarget handle target =>
    simp only [carryOut, update]
    split <;> rfl
  | delete handle =>
    simp only [carryOut, delete]
    split <;> rfl

theorem uptime_carryOutAll (changes : List (Change κ)) (s : Scheduler κ τ) :
    (carryOutAll changes s).state.uptime = s.uptime := by
  induction changes generalizing s with
  | nil => rfl
  | cons c rest ih => exact (ih _).trans (s.uptime_carryOut c)

theorem delete_present {s : Scheduler κ τ} {handle : Handle} (there : s.contains handle) :
    (s.delete handle).state = s.recorded (dropFirst handle s.tasks) (.deleted handle) := by
  obtain ⟨t, found⟩ := Option.isSome_iff_exists.mp there
  simp only [delete, found]

theorem delete_absent {s : Scheduler κ τ} {handle : Handle} (absent : s.contains handle = false) :
    (s.delete handle).state = s := by
  have missing : s.find? handle = none := Option.isNone_iff_eq_none.mp (by simpa [contains] using absent)
  simp only [delete, missing]

/-- A change is carried out alike whatever the log, and records its event there. -/
theorem carryOut_logging (s : Scheduler κ τ) (log : EventLog κ) (c : Change κ) :
    ((s.logging log).carryOut c).state =
      (s.carryOut c).state.logging (log.recordAll ((s.effect? c).toList.map (s.uptime, ·))) := by
  cases c with
  | add task =>
    by_cases room : s.tasks.length < s.capacity
    · simp only [carryOut, effect?, room, ↓reduceIte, logging]
      rfl
    · simp only [carryOut, effect?, room, ↓reduceIte, logging]
      rfl
  | retarget handle target =>
    by_cases there : s.contains handle
    · have same : (s.logging log).contains handle := there
      simp only [carryOut, update, effect?, there, same, ↓reduceIte]
      rfl
    · have same : ¬ (s.logging log).contains handle := there
      simp only [carryOut, update, effect?, there, same, Bool.false_eq_true, ↓reduceIte]
      rfl
  | delete handle =>
    cases there : s.contains handle with
    | true =>
      have same : (s.logging log).contains handle = true := there
      simp only [carryOut, effect?, there, delete_present there, delete_present same, ↓reduceIte]
      rfl
    | false =>
      have same : (s.logging log).contains handle = false := there
      simp only [carryOut, effect?, there, delete_absent there, delete_absent same, Bool.false_eq_true, ↓reduceIte]
      rfl

theorem carryOutAll_logging (changes : List (Change κ)) (s : Scheduler κ τ) (log : EventLog κ) :
    (carryOutAll changes (s.logging log)).state =
      (carryOutAll changes s).state.logging (log.recordAll ((effects changes s).map (s.uptime, ·))) := by
  induction changes generalizing s log with
  | nil => rfl
  | cons c rest ih =>
    simp only [carryOutAll, Reply.andThen, effects, List.map_append, EventLog.recordAll_append]
    rw [carryOut_logging, ih, uptime_carryOut]

/-- A change takes effect exactly where it leaves an event. -/
theorem replays_carryOut (s : Scheduler κ τ) (c : Change κ) :
    Event.ReplaysAll (s.effect? c).toList s.registrations (s.carryOut c).state.registrations := by
  cases c with
  | add task =>
    by_cases room : s.tasks.length < s.capacity
    · simp only [carryOut, effect?, room, ↓reduceIte, recorded, registrations, List.map_append]
      exact (Event.Replays.added _ _ _).all
    · simp only [carryOut, effect?, room, ↓reduceIte]
      exact .none _
  | retarget handle target =>
    have same : (s.carryOut (.retarget handle target)).state.registrations = s.registrations := by
      show (s.update handle target).state.tasks.map Task.registration = _
      rw [tasks_update]
      exact registrations_restartFirst handle target s.tasks
    rw [same, effect?]
    split
    · exact (Event.Replays.retargeted _ _ _).all
    · exact .none _
  | delete handle =>
    cases there : s.contains handle with
    | true =>
      simp only [carryOut, effect?, there, delete_present there, ↓reduceIte]
      exact (replays_dropFirst (contains_iff.mp there)).all
    | false =>
      simp only [carryOut, effect?, there, delete_absent there, Bool.false_eq_true, ↓reduceIte]
      exact .none _

theorem replays_carryOutAll (changes : List (Change κ)) (s : Scheduler κ τ) :
    Event.ReplaysAll (effects changes s) s.registrations (carryOutAll changes s).state.registrations := by
  induction changes generalizing s with
  | nil => exact .none _
  | cons c rest ih => exact (s.replays_carryOut c).append (ih _)

/-- What is added was to be added. -/
theorem added_effects (changes : List (Change κ)) (s : Scheduler κ τ) :
    (((effects changes s).filterMap Event.added?).map (·.1)).Sublist
      ((changes.filterMap Change.added?).map (·.handle)) := by
  induction changes generalizing s with
  | nil => exact List.Sublist.refl _
  | cons c rest ih =>
    have parts : c :: rest = [c] ++ rest := rfl
    rw [effects, parts, List.filterMap_append, List.filterMap_append, List.map_append, List.map_append]
    refine List.Sublist.append ?_ (ih _)
    cases c with
    | add task =>
      simp only [effect?]
      split
      · exact List.Sublist.refl _
      · exact List.nil_sublist _
    | retarget handle target =>
      simp only [effect?]
      split <;> exact List.Sublist.refl _
    | delete handle =>
      simp only [effect?]
      split <;> exact List.Sublist.refl _

/-- The change that a request between ticks makes at once. -/
def change? (s : Scheduler κ τ) : Request κ → Option (Change κ)
  | .add key target visibility => some (.add (.fresh s.nextHandle key target visibility))
  | .update handle target => some (.retarget handle target)
  | .delete handle => some (.delete handle)
  | .contains _ | .idleTime => none

/-- The event that a request between ticks leaves, if it is granted. -/
def granted? (s : Scheduler κ τ) (q : Request κ) : Option (Event κ) := (s.change? q).bind s.effect?

theorem registry_logging (q : Request κ) (s : Scheduler κ τ) (log : EventLog κ) :
    (registry q (s.logging log)).state =
      (registry q s).state.logging (log.recordAll ((s.granted? q).toList.map (s.uptime, ·))) := by
  cases q with
  | add key target visibility =>
    by_cases room : s.tasks.length < s.capacity
    · simp only [registry, add, granted?, change?, Option.bind_some, effect?, logging, room, ↓reduceIte]
      rfl
    · simp only [registry, add, granted?, change?, Option.bind_some, effect?, logging, room, ↓reduceIte]
      rfl
  | update handle target => exact s.carryOut_logging log (.retarget handle target)
  | delete handle => exact s.carryOut_logging log (.delete handle)
  | contains handle => rfl
  | idleTime => rfl

theorem replays_registry (q : Request κ) (s : Scheduler κ τ) :
    Event.ReplaysAll (s.granted? q).toList s.registrations (registry q s).state.registrations := by
  cases q with
  | add key target visibility =>
    have carried := s.replays_carryOut (.add (.fresh s.nextHandle key target visibility))
    by_cases room : s.tasks.length < s.capacity
    · simp only [carryOut, room, ↓reduceIte] at carried
      simp only [registry, add, room, ↓reduceIte]
      exact carried
    · simp only [carryOut, room, ↓reduceIte] at carried
      simp only [registry, add, room, ↓reduceIte]
      exact carried
  | update handle target => exact s.replays_carryOut (.retarget handle target)
  | delete handle => exact s.replays_carryOut (.delete handle)
  | contains handle => exact .none _
  | idleTime => exact .none _

theorem given_registry {q : Request κ} {s : Scheduler κ τ} {handle : Handle}
    (given : Exchange.given? ⟨q, (registry q s).answer⟩ = some handle) : handle = s.nextHandle := by
  cases q with
  | add key target visibility =>
    by_cases room : s.tasks.length < s.capacity
    · simp only [registry, add, room, ↓reduceIte] at given
      exact (Option.some.inj given).symm
    · simp only [registry, add, room, ↓reduceIte] at given
      contradiction
  | update | delete | contains | idleTime => contradiction

theorem uptime_registry (q : Request κ) (s : Scheduler κ τ) : (registry q s).state.uptime = s.uptime := by
  cases q with
  | add key target visibility =>
    simp only [registry, add]
    split <;> rfl
  | update handle target => exact s.uptime_carryOut (.retarget handle target)
  | delete handle => exact s.uptime_carryOut (.delete handle)
  | contains handle => rfl
  | idleTime => rfl

theorem added_registry (q : Request κ) (s : Scheduler κ τ) :
    ((s.granted? q).toList.filterMap Event.added?).map (·.1) =
      [⟨q, (registry q s).answer⟩].filterMap Exchange.given? := by
  cases q with
  | add key target visibility =>
    simp only [granted?, change?, Option.bind_some, effect?, registry, add]
    split <;> rfl
  | update handle target =>
    simp only [granted?, change?, Option.bind_some, effect?]
    split <;> rfl
  | delete handle =>
    simp only [granted?, change?, Option.bind_some, effect?]
    split <;> rfl
  | contains handle => rfl
  | idleTime => rfl

/-- The events of a tick: tasks end first, then changes take effect. -/
def ticked (s : Scheduler κ τ) (code : TaskCode κ ρ) (shared : ρ) : List (Event κ) :=
  Sweep.endings code (s.uptime + s.period) s.aged (s.firstSweep shared) ++
    effects (s.lastPass code shared).changes (s.settled code shared)

/-- The events of an action. -/
def happened (s : Scheduler κ τ) : Action κ → List (Event κ)
  | .start _ | .stop => []
  | .ask q => (s.granted? q).toList
  | .tick code shared => if s.active then s.ticked code shared else []

theorem added_act (s : Scheduler κ τ) (a : Action κ) :
    (((s.happened a).filterMap Event.added?).map (·.1)).Sublist ((s.exchanges a).filterMap Exchange.given?) := by
  cases a with
  | start period => exact List.Sublist.refl _
  | stop => exact List.Sublist.refl _
  | ask q => exact (added_registry q s) ▸ List.Sublist.refl _
  | tick code shared =>
    by_cases active : s.active
    · obtain ⟨run, -⟩ := s.underway_swept code shared
      have asked : (s.lastPass code shared).changes = (s.tickExchanges code shared).filterMap Exchange.change? :=
        Pass.changes_underway run
      simp only [happened, ticked, exchanges, active, ↓reduceIte, List.filterMap_append, Sweep.added?_endings, List.nil_append]
      rw [← Exchange.filterMap_given?, ← asked]
      exact added_effects _ _
    · simp only [happened, exchanges, active, Bool.false_eq_true, ↓reduceIte]
      exact List.Sublist.refl _

theorem Sound.fresh_act {n : Nat} {s : Scheduler κ τ} (sound : s.Sound n) (a : Action κ)
    (few : n + Exchange.mintedIn (s.exchanges a) < Handle.numbers) : Exchange.Fresh n (s.exchanges a) := by
  cases a with
  | start period => exact .none n
  | stop => exact .none n
  | ask q =>
    refine .one fun h given => ?_
    rw [given_registry given]
    exact sound.next
  | tick code shared =>
    by_cases active : s.active
    · simp only [exchanges, active, ↓reduceIte] at few ⊢
      exact sound.firstPass.fresh_underway (s.underway_swept code shared).1 few
    · simp only [exchanges, active, Bool.false_eq_true, ↓reduceIte]
      exact .none n

variable [TickTimer τ]

/-- The events of a run, each with the uptime at which it happened. -/
def chronicle : Scheduler κ τ → List (Action κ) → List (Duration × Event κ)
  | _, [] => []
  | s, a :: rest => (s.happened a).map ((s.act a).uptime, ·) ++ (s.act a).chronicle rest

theorem chronicle_append (s : Scheduler κ τ) (earlier later : List (Action κ)) :
    s.chronicle (earlier ++ later) = s.chronicle earlier ++ (s.run earlier).chronicle later := by
  induction earlier generalizing s with
  | nil => rfl
  | cons a rest ih =>
    simp only [List.cons_append, chronicle, ih, List.append_assoc]
    rfl

theorem events_chronicle (s : Scheduler κ τ) (a : Action κ) (rest : List (Action κ)) :
    (s.chronicle (a :: rest)).map (·.2) = s.happened a ++ ((s.act a).chronicle rest).map (·.2) := by
  rw [chronicle, List.map_append, List.map_map]
  exact congrArg (· ++ _) (List.map_id _)

theorem uptime_act (s : Scheduler κ τ) (a : Action κ) : (s.act a).uptime = s.uptime + .total (s.lapse a) := by
  cases a with
  | start period =>
    rw [lapse, Duration.total_nil, Duration.add_zero, act, start]
    split <;> rfl
  | stop => exact (Duration.add_zero _).symm
  | ask q => exact (uptime_registry q s).trans (Duration.add_zero _).symm
  | tick code shared =>
    by_cases active : s.active
    · rw [act, tick_settled active, uptime_carryOutAll]
      simp only [lapse, active, ↓reduceIte, Duration.total_singleton]
      rfl
    · rw [act, (s.tick_stopped (by simpa using active) code shared).1]
      simp only [lapse, active, Bool.false_eq_true, ↓reduceIte, Duration.total_nil, Duration.add_zero]

/-- A run adds the periods of its ticks to the uptime. -/
theorem uptime_periods (s : Scheduler κ τ) (actions : List (Action κ)) :
    (s.run actions).uptime = s.uptime + .total (s.periods actions) := by
  induction actions generalizing s with
  | nil => exact (Duration.add_zero _).symm
  | cons a rest ih =>
    rw [periods, Duration.total_append, ← Duration.add_assoc, ← s.uptime_act a]
    exact ih (s.act a)

/-- An action does the same whatever the log, and records its events there. -/
theorem act_logging (s : Scheduler κ τ) (log : EventLog κ) (a : Action κ) :
    (s.logging log).act a = (s.act a).logging (log.recordAll ((s.happened a).map ((s.act a).uptime, ·))) := by
  cases a with
  | start period =>
    simp only [act, start, logging]
    split <;> rfl
  | stop => rfl
  | ask q =>
    simp only [act, happened, uptime_registry]
    exact registry_logging q s log
  | tick code shared =>
    by_cases active : s.active
    · have started : (s.logging log).active = true := active
      have swept : ((s.logging log).swept code shared).state = (s.swept code shared).state.logging
          (log.recordAll ((Sweep.endings code (s.uptime + s.period) s.aged (s.firstSweep shared)).map
            (s.uptime + s.period, ·))) :=
        Sweep.through_logging code _ s.aged (s.firstSweep shared) log
      have settled : (s.logging log).settled code shared = (s.settled code shared).logging
          ((s.logging log).swept code shared).state.events := by
        simp only [Scheduler.settled, lastPass, swept]
        rfl
      have changes : ((s.logging log).lastPass code shared).changes = (s.lastPass code shared).changes := by
        simp only [lastPass, swept]
        rfl
      have uptime := s.uptime_act (.tick code shared)
      simp only [lapse, active, ↓reduceIte, Duration.total_singleton] at uptime
      rw [uptime]
      simp only [act, tick_settled started, tick_settled active, changes, settled, carryOutAll_logging, happened, ticked,
        active, ↓reduceIte, List.map_append, EventLog.recordAll_append, swept]
      rfl
    · have stopped : (s.logging log).active = false := by simpa using! active
      simp only [act, happened, active, Bool.false_eq_true, ↓reduceIte, List.map_nil,
        (tick_stopped _ stopped code shared).1, (tick_stopped s stopped code shared).1]
      rfl

/-- A run does the same whatever the log, and records its chronicle there. -/
theorem run_logging (s : Scheduler κ τ) (log : EventLog κ) (actions : List (Action κ)) :
    (s.logging log).run actions = (s.run actions).logging (log.recordAll (s.chronicle actions)) := by
  induction actions generalizing s log with
  | nil => rfl
  | cons a rest ih =>
    rw [chronicle, EventLog.recordAll_append, run, List.foldl_cons, act_logging]
    exact ih _ _

theorem replays_act (s : Scheduler κ τ) (a : Action κ) :
    Event.ReplaysAll (s.happened a) s.registrations (s.act a).registrations := by
  cases a with
  | start period =>
    have same : (s.act (.start period)).registrations = s.registrations := by
      simp only [act, start]
      split <;> rfl
    exact same ▸ .none _
  | stop => exact .none _
  | ask q => exact replays_registry q s
  | tick code shared =>
    by_cases active : s.active
    · have swept : Event.ReplaysAll _ s.firstPass.registrations (s.lastPass code shared).registrations :=
        Sweep.replays_through code (s.uptime + s.period) (s.firstSweep shared) rfl
      have first : s.firstPass.registrations = s.registrations := by
        simp [Pass.registrations, firstPass, begin, aged, registrations, Function.comp_def, Task.registration, Task.aged]
      have last : (s.settled code shared).registrations = (s.lastPass code shared).registrations :=
        (s.lastPass code shared).registrations_entries
      rw [first, ← last] at swept
      simp only [happened, ticked, act, tick_settled active, active, ↓reduceIte]
      exact swept.append (replays_carryOutAll _ _)
    · simp only [happened, act, active, Bool.false_eq_true, ↓reduceIte,
        (tick_stopped s (by simpa using active) code shared).1]
      exact .none _

/-- Replayed on the registrations that there were, a chronicle leaves those that there are. -/
theorem replays_run (s : Scheduler κ τ) (actions : List (Action κ)) :
    Event.ReplaysAll ((s.chronicle actions).map (·.2)) s.registrations (s.run actions).registrations := by
  induction actions generalizing s with
  | nil => exact .none _
  | cons a rest ih =>
    rw [events_chronicle]
    exact (s.replays_act a).append (ih _)

/-- Every handle that is added was given out. -/
theorem added_run (s : Scheduler κ τ) (actions : List (Action κ)) :
    ((((s.chronicle actions).map (·.2)).filterMap Event.added?).map (·.1)).Sublist
      ((s.history actions).filterMap Exchange.given?) := by
  induction actions generalizing s with
  | nil => exact List.Sublist.refl _
  | cons a rest ih =>
    rw [events_chronicle, history, List.filterMap_append, List.map_append, List.filterMap_append]
    exact (s.added_act a).append (ih _)

/-- No handle is given out twice while there are handles left. -/
theorem Sound.fresh_run {n : Nat} {s : Scheduler κ τ} (sound : s.Sound n) (actions : List (Action κ))
    (few : n + Exchange.mintedIn (s.history actions) < Handle.numbers) : Exchange.Fresh n (s.history actions) := by
  have all := run_induction
    (motive := fun history s => n + Exchange.mintedIn history < Handle.numbers →
      s.Sound (n + Exchange.mintedIn history) ∧ Exchange.Fresh n history)
    (fun history s a before few => by
      rw [Exchange.mintedIn_append, ← Nat.add_assoc] at few ⊢
      obtain ⟨sound, fresh⟩ := before (by omega)
      exact ⟨sound.act a few, fresh.append (sound.fresh_act a few)⟩)
    actions [] s fun _ => ⟨sound, .none n⟩
  exact (all few).2

theorem uptime_le_run (s : Scheduler κ τ) (actions : List (Action κ)) : s.uptime ≤ (s.run actions).uptime := by
  rw [uptime_periods]
  exact Duration.le_add_right _ _

theorem uptimes_chronicle (s : Scheduler κ τ) (actions : List (Action κ)) :
    (∀ r ∈ s.chronicle actions, s.uptime ≤ r.1 ∧ r.1 ≤ (s.run actions).uptime) ∧
      (s.chronicle actions).Pairwise fun r later => r.1 ≤ later.1 := by
  induction actions generalizing s with
  | nil => exact ⟨fun _ member => absurd member List.not_mem_nil, List.Pairwise.nil⟩
  | cons a rest ih =>
    obtain ⟨between, ordered⟩ := ih (s.act a)
    have first : s.uptime ≤ (s.act a).uptime := s.uptime_act a ▸ Duration.le_add_right _ _
    refine ⟨?_, List.pairwise_append.mpr ⟨?_, ordered, ?_⟩⟩
    · intro r member
      rcases List.mem_append.mp member with now | later
      · obtain ⟨e, -, rfl⟩ := List.mem_map.mp now
        exact ⟨first, (s.act a).uptime_le_run rest⟩
      · exact ⟨Nat.le_trans first (between r later).1, (between r later).2⟩
    · exact List.pairwise_map.mpr (List.pairwise_of_forall fun _ _ => Nat.le_refl _)
    · intro r now later member
      obtain ⟨e, -, rfl⟩ := List.mem_map.mp now
      exact (between later member).1

/-- The event log tells what has happened. Whatever log a run is given, it does the same and records its
chronicle there; its own log keeps the newest events of the chronicle, at uptimes that never decrease
and are not past the uptime. Replayed, the chronicle leaves the registrations that there are, in their
order, and what it removes was there. While there are handles left this is the only way to replay it,
and no registration is added or removed twice. -/
theorem chronicle_faithful (capacity : Nat) (timer : τ) (actions : List (Action κ)) :
    let fresh : Scheduler κ τ := empty capacity timer
    let s := fresh.run actions
    let records := fresh.chronicle actions
    let events := records.map (·.2)
    (∀ log, (fresh.logging log).run actions = s.logging (log.recordAll records)) ∧
    (s.events.capacity = eventCapacity ∧ s.events.Keeps records) ∧
    (s.events.kept.Pairwise (fun r later => r.uptime ≤ later.uptime) ∧ ∀ r ∈ s.events.kept, r.uptime ≤ s.uptime) ∧
    Event.ReplaysAll events [] s.registrations ∧
    (Exchange.mintedIn (fresh.history actions) < Handle.numbers →
      Event.replay? events [] = some s.registrations ∧ ((events.filterMap Event.added?).map (·.1)).Nodup ∧
        (events.filterMap Event.removed?).Nodup) := by
  intro fresh s records events
  have logged := fresh.run_logging fresh.events actions
  have log : s.events = (EventLog.empty eventCapacity).recordAll records := congrArg Scheduler.events logged
  have replays : Event.ReplaysAll events [] s.registrations := fresh.replays_run actions
  obtain ⟨between, ordered⟩ := fresh.uptimes_chronicle actions
  have keeps : s.events.Keeps records := log ▸ EventLog.keeps_recordAll eventCapacity records
  refine ⟨fun log => fresh.run_logging log actions, ⟨?_, keeps⟩, ⟨?_, ?_⟩, replays, fun few => ?_⟩
  · rw [log, EventLog.recordAll_empty]
  · exact keeps.pairwise ordered
  · exact fun r kept => (between _ (keeps.recorded kept)).2
  · have given : ((fresh.history actions).filterMap Exchange.given?).Nodup :=
      ((sound_empty capacity timer).fresh_run actions ((Nat.zero_add _).symm ▸ few)).once
    have alone : ((events.filterMap Event.added?).map (·.1)).Nodup := (fresh.added_run actions).nodup given
    exact ⟨replays.replay?_eq alone, alone, replays.nodup_removed alone⟩

theorem chronicle_faithful_reaping :
    let fresh : Scheduler Nat ManualTimer := empty 4 .stopped
    let actions := threeTasks ++ [.tick reaping ()]
    let events := (fresh.chronicle actions).map (·.2)
    Exchange.mintedIn (fresh.history actions) < Handle.numbers ∧
    events = [.added ⟨1⟩ 0, .added ⟨2⟩ 1, .added ⟨3⟩ 2, .completed ⟨3⟩ 2, .deleted ⟨2⟩, .added ⟨4⟩ 3] ∧
    Event.replay? events [] = some [(⟨1⟩, 0), (⟨4⟩, 3)] ∧ (events.filterMap Event.removed?).Nodup := by
  obtain ⟨-, -, -, -, few⟩ := chronicle_faithful (κ := Nat) 4 ManualTimer.stopped (threeTasks ++ [.tick reaping ()])
  obtain ⟨replayed, -, once⟩ := few (by decide)
  exact ⟨by decide, rfl, replayed, once⟩

end Scheduler
end ConferenceBadge
