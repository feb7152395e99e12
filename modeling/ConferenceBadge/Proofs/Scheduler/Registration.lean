import ConferenceBadge.Proofs.Scheduler.Dispatch
import ConferenceBadge.Proofs.Scheduler.FiringTime

/-!
Tasks that a tick is asked to register. Whether there is a place is decided when the request comes, by
the places taken then; the task is registered when the queue is carried out. By then no more places are
taken, so every task that was accepted is registered, and what the requests after it left of it is there
after the tick (`accepted_registration_kept`).
-/
namespace ConferenceBadge

variable {κ τ ρ : Type}

namespace Exchange

/-- The target that a task with this handle was given. -/
def retargeted? (handle : Handle) : Exchange κ → Option Duration
  | ⟨.update named target, true⟩ => if named = handle then some target else none
  | _ => none

end Exchange

namespace Change

/-- The target that a change gives to a task with this handle. -/
def retargeted? (handle : Handle) : Change κ → Option Duration
  | retarget named target => if named = handle then some target else none
  | _ => none

/-- What changes leave of a task that starts to wait, where none of them removes it: it waits for the
last target that it was given. -/
theorem foldlM_applied?_fresh {changes : List (Change κ)} {handle : Handle}
    (stays : handle ∉ changes.filterMap deleted?) (key : κ) (target : Duration) (visibility : Visibility) :
    changes.foldlM applied? (.fresh handle key target visibility) =
      some (.fresh handle key ((changes.filterMap (retargeted? handle)).getLast?.getD target) visibility) := by
  induction changes generalizing target with
  | nil => rfl
  | cons c rest ih =>
    rw [List.foldlM_cons]
    cases c with
    | add task => exact ih stays target
    | retarget named later =>
      by_cases same : named = handle
      · have first : retargeted? handle (.retarget named later : Change κ) = some later := if_pos same
        have given : applied? (.fresh handle key target visibility) (.retarget named later) =
            some (.fresh handle key later visibility) := congrArg some (if_pos same)
        rw [given, List.filterMap_cons_some first, List.getLast?_cons, Option.getD_some]
        exact ih stays later
      · have first : retargeted? handle (.retarget named later : Change κ) = none := if_neg same
        have untouched : applied? (.fresh handle key target visibility) (.retarget named later) =
            some (.fresh handle key target visibility) := congrArg some (if_neg same)
        rw [untouched, List.filterMap_cons_none first]
        exact ih stays target
    | delete named =>
      obtain ⟨other, later⟩ := not_or.mp (mt List.mem_cons.mpr stays)
      have untouched : applied? (.fresh handle key target visibility) (.delete named) =
          some (.fresh handle key target visibility) := if_neg (Ne.symm other)
      rw [untouched]
      exact ih later target

end Change

namespace Exchange

theorem filterMap_retargeted? (handle : Handle) (history : List (Exchange κ)) :
    (history.filterMap change?).filterMap (Change.retargeted? handle) = history.filterMap (retargeted? handle) := by
  rw [List.filterMap_filterMap]
  refine List.filterMap_congr fun e _ => ?_
  obtain ⟨q, answer⟩ := e
  cases q with
  | add key target visibility => cases answer <;> rfl
  | update named target => cases answer <;> rfl
  | delete named => cases answer <;> rfl
  | contains named => rfl
  | idleTime => rfl

theorem mem_filterMap_removed? {handle : Handle} {history : List (Exchange κ)} :
    handle ∈ history.filterMap removed? ↔ ⟨.delete handle, true⟩ ∈ history := by
  rw [List.mem_filterMap]
  constructor
  · rintro ⟨e, member, named⟩
    unfold removed? at named
    split at named
    · obtain rfl := Option.some.inj named
      exact member
    · contradiction
  · intro member
    exact ⟨_, member, rfl⟩

end Exchange

namespace Pass

private theorem filter_named {before after : List (Task κ)} {t : Task κ}
    (distinct : ((before ++ t :: after).map (·.handle)).Nodup) :
    (before ++ t :: after).filter (·.handle = t.handle) = [t] := by
  rw [List.map_append, List.map_cons, List.nodup_middle, List.nodup_cons, List.mem_append, not_or] at distinct
  obtain ⟨⟨earlier, later⟩, -⟩ := distinct
  have none {others : List (Task κ)} (absent : t.handle ∉ others.map (·.handle)) :
      others.filter (·.handle = t.handle) = [] := by
    refine List.filter_eq_nil_iff.mpr fun u member same => absent ?_
    exact List.mem_map.mpr ⟨u, member, of_decide_eq_true same⟩
  have here : (t :: after).filter (·.handle = t.handle) = t :: after.filter (·.handle = t.handle) :=
    List.filter_cons_of_pos (decide_eq_true rfl)
  rw [List.filter_append, none earlier, here, none later]
  rfl

/-- What is left under the handle of a task that was added: the task with the last target that it was
given, or nothing where its removal was accepted. -/
theorem Sound.filter_survivors {n : Nat} {p : Pass κ} (sound : p.Sound n) {earlier later : List (Change κ)}
    {handle : Handle} {key : κ} {target : Duration} {visibility : Visibility}
    (queued : p.changes = earlier ++ .add (.fresh handle key target visibility) :: later) :
    p.survivors.filter (·.handle = handle) =
      if handle ∈ later.filterMap Change.deleted? then []
      else [.fresh handle key ((later.filterMap (Change.retargeted? handle)).getLast?.getD target) visibility] := by
  let task : Task κ := .fresh handle key target visibility
  have parts : p.base = (p.entries.filterMap Entry.survivor? ++ earlier.filterMap Change.added?) ++
      task :: later.filterMap Change.added? := by
    rw [base, queued, List.filterMap_append, List.append_assoc]
    rfl
  have alone : p.base.filter (·.handle = handle) = [task] := by
    have distinct := p.handles_base_sublist.nodup sound.distinct
    rw [show p.entries.filterMap Entry.survivor? ++ p.changes.filterMap Change.added? = p.base from rfl, parts] at distinct
    rw [parts]
    exact filter_named distinct
  -- No change that came before the task names its handle.
  have mine : p.changes.foldlM Change.applied? task = later.foldlM Change.applied? task := by
    have fresh := sound.fresh
    rw [queued] at fresh
    have others : ∀ c ∈ earlier, c.handle ≠ task.handle := fun c member =>
      (List.pairwise_append.mp fresh).2.2 c member _ List.mem_cons_self task rfl
    rw [queued, List.foldlM_append, Change.foldlM_applied?_other others]
    rfl
  have named : p.survivors.filter (·.handle = handle) =
      (p.base.filter (·.handle = handle)).filterMap fun t => p.changes.foldlM Change.applied? t := by
    rw [survivors, base, List.filter_filterMap, List.filterMap_filter]
    refine List.filterMap_congr fun t _ => ?_
    cases left : p.changes.foldlM Change.applied? t with
    | none => simp
    | some after =>
      rw [← Change.handle_of_foldlM left]
      by_cases same : after.handle = handle <;> simp [Option.filter, same]
  rw [named, alone]
  split
  · next gone =>
    have nothing := mine.trans (Change.foldlM_applied?_deleted gone)
    simp only [List.filterMap_cons, nothing, List.filterMap_nil]
  · next stays =>
    have last := mine.trans (Change.foldlM_applied?_fresh stays key target visibility)
    simp only [List.filterMap_cons, last, List.filterMap_nil]

end Pass

namespace Scheduler

variable [ToString κ]

/-- When the queue comes to a task that was accepted, there is a place for it. -/
theorem vacant_amid {s : Scheduler κ τ} (room : s.tasks.length ≤ s.capacity) (code : TaskCode κ ρ) (shared : ρ)
    {earlier later : List (Change κ)} {task : Task κ}
    (queued : (s.lastPass code shared).changes = earlier ++ .add task :: later) :
    (s.amid code shared earlier).tasks.length < (s.amid code shared earlier).capacity := by
  obtain ⟨run, -⟩ := s.underway_swept code shared
  have taken : (s.lastPass code shared).occupied ≤ s.capacity :=
    Nat.le_trans ((orderly_firstPass room).underway run).room (Nat.le_of_eq (Pass.capacity_underway run))
  have added : ((s.lastPass code shared).changes.filterMap Change.added?).length =
      (earlier.filterMap Change.added?).length + 1 + (later.filterMap Change.added?).length := by
    rw [queued, List.filterMap_append, List.filterMap_cons_some (show (Change.add task).added? = some task from rfl),
      List.length_append, List.length_cons]
    omega
  have grown : (s.amid code shared earlier).tasks.length ≤
      ((s.lastPass code shared).entries.filterMap Entry.survivor?).length + (earlier.filterMap Change.added?).length :=
    length_carryOutAll_le earlier (s.settled code shared)
  have capacity : (s.amid code shared earlier).capacity = s.capacity := (carryOutAll_frame earlier _).1
  rw [Pass.occupied, added] at taken
  omega

/-- Every task that a tick accepts for registration is registered at its end, for the queue finds a place
for it, and never holds more tasks than there is room for on the way. While handles have not been used up,
the task is there after the tick with the last target that it was given, unless a later request of the
same tick removed it. -/
theorem accepted_registration_kept [TickTimer τ] (capacity : Nat) (timer : τ) (actions : List (Action κ))
    (code : TaskCode κ ρ) (shared : ρ) :
    let s : Scheduler κ τ := (empty capacity timer).run actions
    let minted := Exchange.mintedIn ((empty capacity timer : Scheduler κ τ).history actions)
    let tick := s.tick code shared
    let queue := (s.lastPass code shared).changes
    s.active = true →
      tick.state.1 = s.amid code shared queue ∧
      (∀ n, (s.amid code shared (queue.take n)).tasks.length ≤ capacity) ∧
      ∀ earlier key target visibility handle later,
        s.tickExchanges code shared = earlier ++ ⟨.add key target visibility, .ok handle⟩ :: later →
        let before := s.amid code shared (earlier.filterMap Exchange.change?)
        let task := Task.fresh handle key target visibility
        queue = earlier.filterMap Exchange.change? ++ .add task :: later.filterMap Exchange.change? ∧
        before.carryOut (.add task) = ⟨(), before.recorded (before.tasks ++ [task]) (.added handle key), []⟩ ∧
        (minted + Exchange.mintedIn (s.tickExchanges code shared) < Handle.numbers →
          (⟨.delete handle, true⟩ ∉ later →
            tick.state.1.tasks.filter (·.handle = handle) =
              [.fresh handle key ((later.filterMap (Exchange.retargeted? handle)).getLast?.getD target) visibility]) ∧
          (⟨.delete handle, true⟩ ∈ later → tick.state.1.tasks.filter (·.handle = handle) = [])) := by
  intro s minted tick queue active
  obtain ⟨room, same⟩ : s.tasks.length ≤ s.capacity ∧ s.capacity = capacity := room_run (Nat.zero_le _) actions
  refine ⟨tick_settled active code shared, ?_, ?_⟩
  · intro n
    rw [← same]
    exact room_carryOutAll (room_settled room code shared)
  · intro earlier key target visibility handle later asked before task
    have queued : queue = earlier.filterMap Exchange.change? ++ .add task :: later.filterMap Exchange.change? := by
      have all : queue = (s.tickExchanges code shared).filterMap Exchange.change? :=
        Pass.changes_underway (s.underway_swept code shared).1
      rw [all, asked, List.filterMap_append]
      rfl
    refine ⟨queued, ?_, ?_⟩
    · have vacant : before.tasks.length < before.capacity := vacant_amid room code shared queued
      simp only [carryOut, vacant, ↓reduceIte]
      rfl
    · intro unused
      have sound : s.Sound minted := sound_run capacity timer actions (by omega)
      have tasks : tick.state.1.tasks = (s.lastPass code shared).survivors := sound.tasks_tick active code shared unused
      have left := (sound.swept code shared unused).1.filter_survivors queued
      rw [Exchange.filterMap_removed?, Exchange.filterMap_retargeted?] at left
      rw [tasks]
      constructor
      · intro stays
        rw [← Exchange.mem_filterMap_removed?] at stays
        exact left.trans (if_neg stays)
      · intro gone
        rw [← Exchange.mem_filterMap_removed?] at gone
        exact left.trans (if_pos gone)

/-- A task that registers two more, puts the first of them off twice and takes the other back. -/
def spawning : TaskCode Nat Unit
  | 0, _ => do
    let _ ← Program.add 3 (.ofMillis 5) .visible
    let _ ← Program.add 4 (.ofMillis 5) .hidden
    let _ ← Program.update ⟨4⟩ (.ofMillis 7)
    let _ ← Program.delete ⟨5⟩
    let _ ← Program.update ⟨4⟩ (.ofMillis 9)
    return (.ok .remove, ())
  | _, _ => return (.error ⟨"no such task"⟩, ())

theorem accepted_registration_kept_spawning :
    let s : Scheduler Nat ManualTimer := (empty 5 .stopped).run threeTasks
    let first : Exchange Nat := ⟨.add 3 (.ofMillis 5) .visible, .ok ⟨4⟩⟩
    let second : Exchange Nat := ⟨.add 4 (.ofMillis 5) .hidden, .ok ⟨5⟩⟩
    let later : List (Exchange Nat) :=
      [⟨.update ⟨4⟩ (.ofMillis 7), true⟩, ⟨.delete ⟨5⟩, true⟩, ⟨.update ⟨4⟩ (.ofMillis 9), true⟩]
    s.active = true ∧ s.tickExchanges spawning () = first :: second :: later ∧
      Exchange.mintedIn ((empty 5 .stopped : Scheduler Nat ManualTimer).history threeTasks) +
        Exchange.mintedIn (s.tickExchanges spawning ()) < Handle.numbers ∧
      (s.tick spawning ()).state.1.tasks.filter (·.handle = ⟨4⟩) = [.fresh ⟨4⟩ 3 (.ofMillis 9) .visible] ∧
      (s.tick spawning ()).state.1.tasks.filter (·.handle = ⟨5⟩) = [] := by
  intro s first second later
  subst s
  have asked : ((empty 5 .stopped : Scheduler Nat ManualTimer).run threeTasks).tickExchanges spawning () =
      first :: second :: later := rfl
  have kept := (accepted_registration_kept (κ := Nat) 5 ManualTimer.stopped threeTasks spawning () rfl).2.2
  have few : Exchange.mintedIn ((empty 5 .stopped : Scheduler Nat ManualTimer).history threeTasks) +
      Exchange.mintedIn (((empty 5 .stopped : Scheduler Nat ManualTimer).run threeTasks).tickExchanges spawning ()) <
        Handle.numbers := by
    rw [asked]
    decide
  have one := (kept [] 3 (.ofMillis 5) .visible ⟨4⟩ (second :: later) asked).2.2 few
  have other := (kept [first] 4 (.ofMillis 5) .hidden ⟨5⟩ later asked).2.2 few
  refine ⟨rfl, asked, few, one.1 ?_, other.2 ?_⟩
  · intro member
    simp [second, later] at member
  · exact List.mem_cons_of_mem _ List.mem_cons_self

end Scheduler
end ConferenceBadge
