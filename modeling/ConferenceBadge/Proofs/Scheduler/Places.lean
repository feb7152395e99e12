import ConferenceBadge.Proofs.Duration
import ConferenceBadge.Proofs.Scheduler.Run

/-!
Where a task goes. Handle numbers start over after the last one, so a task is followed by its place
among the tasks: it moves down by one where a task before it is removed, and at the end of a tick
past those that were not kept. A task that was not due is found at its new place as it was, only
older, whatever the other tasks do (`act_early`).
-/
namespace ConferenceBadge

variable {κ τ ρ : Type}

namespace Task

/-- The place of the first task with a handle. -/
def placeOf? (handle : Handle) (tasks : List (Task κ)) : Option Nat :=
  tasks.findIdx? fun t => t.handle = handle

theorem aged_zero (t : Task κ) : t.aged .zero = t := by
  simp only [aged, Duration.add_zero]

theorem aged_aged (t : Task κ) (a b : Duration) : (t.aged a).aged b = t.aged (a + b) := by
  simp only [aged, Duration.add_assoc]

end Task

/-- What has become of a task. -/
inductive Fate where
  /-- it is registered, at this place -/
  | registered (place : Nat)
  /-- it got a new target or was removed, on request -/
  | changed
  /-- it ran and was not kept -/
  | ended
deriving DecidableEq

namespace Fate

/-- What becomes of a task that goes on from its place while it has one. -/
def andThen : Fate → (Nat → Fate) → Fate
  | registered place, next => next place
  | changed, _ => changed
  | ended, _ => ended

theorem andThen_assoc (fate : Fate) (f g : Nat → Fate) :
    (fate.andThen f).andThen g = fate.andThen fun place => (f place).andThen g := by
  cases fate <;> rfl

theorem ne_changed_of_andThen {fate : Fate} {next : Nat → Fate} (alone : fate.andThen next ≠ changed) :
    fate ≠ changed := by
  rintro rfl
  exact alone rfl

end Fate

namespace Change

/-- What a change makes of the task at a place. Where there is more than one task with its handle it
is about the first. -/
def fate (tasks : List (Task κ)) (place : Nat) : Change κ → Fate
  | add _ => .registered place
  | retarget handle _ => if Task.placeOf? handle tasks = some place then .changed else .registered place
  | delete handle =>
    match Task.placeOf? handle tasks with
    | none => .registered place
    | some first =>
      if first = place then .changed else .registered (if first < place then place - 1 else place)

/-- Only running ends a task. -/
theorem fate_ne_ended (tasks : List (Task κ)) (place : Nat) (c : Change κ) : c.fate tasks place ≠ .ended := by
  cases c with
  | add task => exact Fate.noConfusion
  | retarget handle target =>
    simp only [fate]
    split <;> exact Fate.noConfusion
  | delete handle =>
    simp only [fate]
    split
    · exact Fate.noConfusion
    · split <;> exact Fate.noConfusion

end Change

namespace Request

/-- What a request between ticks makes of the task at a place. -/
def fate (tasks : List (Task κ)) (place : Nat) : Request κ → Fate
  | update handle target => (Change.retarget handle target).fate tasks place
  | delete handle => (Change.delete handle).fate tasks place
  | add .. | contains _ | idleTime => .registered place

theorem fate_ne_ended (tasks : List (Task κ)) (place : Nat) (q : Request κ) : q.fate tasks place ≠ .ended := by
  cases q with
  | update handle target => exact Change.fate_ne_ended tasks place (.retarget handle target)
  | delete handle => exact Change.fate_ne_ended tasks place (.delete handle)
  | add key target visibility => exact Fate.noConfusion
  | contains handle => exact Fate.noConfusion
  | idleTime => exact Fate.noConfusion

end Request

namespace Entry

/-- Whether the task of an entry has run. -/
def ran (e : Entry κ) : Bool := e.settlement.isSome

end Entry

namespace Pass

/-- What outcomes make of the task at a place: those before it that are not kept make room. -/
def fate (p : Pass κ) (place : Nat) : Fate :=
  match p.entries[place]? with
  | some e =>
    if e.survivor?.isSome then .registered ((p.entries.take place).filterMap Entry.survivor?).length else .ended
  | none => .ended

/-- A kept element of a list is found past those that were kept before it. -/
private theorem getElem?_filterMap_past {α β : Type} {f : α → Option β} {l : List α} {place : Nat} {a : α} {b : β}
    (here : l[place]? = some a) (kept : f a = some b) :
    (l.filterMap f)[((l.take place).filterMap f).length]? = some b := by
  obtain ⟨bound, rfl⟩ := List.getElem?_eq_some_iff.mp here
  have parts : l = l.take place ++ l[place] :: l.drop (place + 1) := by
    rw [List.getElem_cons_drop, List.take_append_drop]
  have left : l.filterMap f = (l.take place).filterMap f ++ b :: (l.drop (place + 1)).filterMap f := by
    conv => lhs; rw [parts]
    rw [List.filterMap_append, List.filterMap_cons_some kept]
  rw [left, List.getElem?_append_right (Nat.le_refl _), Nat.sub_self]
  rfl

/-- A task that is kept is found where its fate says. -/
theorem fate_eq {p : Pass κ} {place : Nat} {e : Entry κ} {after : Task κ} (here : p.entries[place]? = some e)
    (kept : e.survivor? = some after) :
    ∃ rank, p.fate place = .registered rank ∧ (p.entries.filterMap Entry.survivor?)[rank]? = some after := by
  refine ⟨((p.entries.take place).filterMap Entry.survivor?).length, ?_, getElem?_filterMap_past here kept⟩
  simp only [fate, here, kept, Option.isSome_some, ↓reduceIte]

end Pass

namespace Scheduler

/-- Re-arming the first task of a handle changes the task at that place and no other. -/
theorem getElem?_restartFirst (handle : Handle) (target : Duration) (tasks : List (Task κ)) (place : Nat) :
    (restartFirst handle target tasks)[place]? =
      if Task.placeOf? handle tasks = some place then tasks[place]?.map (·.restarted target) else tasks[place]? := by
  induction tasks generalizing place with
  | nil => simp [restartFirst]
  | cons t rest ih =>
    rw [restartFirst, Task.placeOf?, List.findIdx?_cons]
    by_cases same : t.handle = handle
    · cases place <;> simp [same]
    · cases place with
      | zero => simp [same]
      | succ place =>
        have before := ih place
        by_cases first : Task.placeOf? handle rest = some place
        · rw [if_pos first] at before
          simp only [Task.placeOf?] at first
          simp [same, first, before]
        · rw [if_neg first] at before
          simp only [Task.placeOf?] at first
          simp [same, first, before]

theorem getElem?_restartFirst_other {handle : Handle} {target : Duration} {tasks : List (Task κ)}
    {place there : Nat} (left : (Change.retarget handle target).fate tasks place = .registered there) :
    (restartFirst handle target tasks)[there]? = tasks[place]? := by
  simp only [Change.fate] at left
  split at left
  · contradiction
  · next other =>
    obtain rfl := Fate.registered.inj left
    rw [getElem?_restartFirst, if_neg other]

theorem getElem?_dropFirst_other {handle : Handle} {tasks : List (Task κ)} {place there : Nat}
    (left : (Change.delete handle).fate tasks place = .registered there) :
    (dropFirst handle tasks)[there]? = tasks[place]? := by
  rw [dropFirst, List.eraseP_eq_eraseIdx]
  simp only [Change.fate, Task.placeOf?] at left
  split at left
  · next absent =>
    obtain rfl := Fate.registered.inj left
    simp only [absent]
  · next first found =>
    simp only [found]
    split at left
    · contradiction
    · next other =>
      obtain rfl := Fate.registered.inj left
      rw [List.getElem?_eraseIdx]
      by_cases below : first < place
      · rw [if_pos below, if_neg (by omega), Nat.sub_add_cancel (by omega)]
      · rw [if_neg below, if_pos (by omega)]

variable [ToString κ]

/-- A request between ticks leaves a task where its fate says. -/
theorem getElem?_registry {s : Scheduler κ τ} {q : Request κ} {place there : Nat} {t : Task κ}
    (here : s.tasks[place]? = some t) (left : q.fate s.tasks place = .registered there) :
    (registry q s).state.tasks[there]? = some t := by
  cases q with
  | add key target visibility =>
    obtain rfl := Fate.registered.inj left
    simp only [registry, add]
    split
    · obtain ⟨bound, -⟩ := List.getElem?_eq_some_iff.mp here
      exact (List.getElem?_append_left bound).trans here
    · exact here
  | update handle target =>
    have tasks : (registry (.update handle target) s).state.tasks = restartFirst handle target s.tasks :=
      tasks_update s handle target
    rw [tasks, getElem?_restartFirst_other left, here]
  | delete handle =>
    have tasks : (registry (.delete handle) s).state.tasks = dropFirst handle s.tasks := tasks_delete s handle
    rw [tasks, getElem?_dropFirst_other left, here]
  | contains handle =>
    obtain rfl := Fate.registered.inj left
    exact here
  | idleTime =>
    obtain rfl := Fate.registered.inj left
    exact here

theorem getElem?_carryOut {s : Scheduler κ τ} {c : Change κ} {place there : Nat} {t : Task κ}
    (here : s.tasks[place]? = some t) (left : c.fate s.tasks place = .registered there) :
    (s.carryOut c).state.tasks[there]? = some t := by
  cases c with
  | add task =>
    obtain rfl := Fate.registered.inj left
    simp only [carryOut]
    split
    · obtain ⟨bound, -⟩ := List.getElem?_eq_some_iff.mp here
      exact (List.getElem?_append_left bound).trans here
    · exact here
  | retarget handle target => exact getElem?_registry (q := .update handle target) here left
  | delete handle => exact getElem?_registry (q := .delete handle) here left

/-- What changes make of the task at a place, carried out one after the other. -/
def fateAmid : List (Change κ) → Scheduler κ τ → Nat → Fate
  | [], _, place => .registered place
  | c :: rest, s, place => (c.fate s.tasks place).andThen (fateAmid rest (s.carryOut c).state)

theorem fateAmid_ne_ended (changes : List (Change κ)) (s : Scheduler κ τ) (place : Nat) :
    fateAmid changes s place ≠ .ended := by
  induction changes generalizing s place with
  | nil => exact Fate.noConfusion
  | cons c rest ih =>
    simp only [fateAmid]
    cases first : c.fate s.tasks place with
    | registered there => exact ih _ _
    | changed => exact Fate.noConfusion
    | ended => exact absurd first (c.fate_ne_ended s.tasks place)

theorem getElem?_carryOutAll {changes : List (Change κ)} {s : Scheduler κ τ} {place there : Nat} {t : Task κ}
    (here : s.tasks[place]? = some t) (left : fateAmid changes s place = .registered there) :
    (carryOutAll changes s).state.tasks[there]? = some t := by
  induction changes generalizing s place with
  | nil =>
    obtain rfl := Fate.registered.inj left
    exact here
  | cons c rest ih =>
    simp only [fateAmid] at left
    cases first : c.fate s.tasks place with
    | registered between =>
      rw [first] at left
      exact ih (getElem?_carryOut here first) left
    | changed =>
      rw [first] at left
      contradiction
    | ended => exact absurd first (c.fate_ne_ended s.tasks place)

/-- The last pass of a tick. -/
def lastPass (s : Scheduler κ τ) (code : TaskCode κ ρ) (shared : ρ) : Pass κ := (s.swept code shared).state.pass

/-- The scheduler at the end of a tick, when outcomes have taken effect and changes have not. -/
def settled (s : Scheduler κ τ) (code : TaskCode κ ρ) (shared : ρ) : Scheduler κ τ :=
  { s with
    uptime := s.uptime + s.period
    events := (s.swept code shared).state.events
    tasks := (s.lastPass code shared).entries.filterMap Entry.survivor?
    nextHandle := (s.lastPass code shared).nextHandle }

/-- A tick of a running scheduler ends by carrying out the changes that its tasks asked for. -/
theorem tick_settled {s : Scheduler κ τ} (active : s.active = true) (code : TaskCode κ ρ) (shared : ρ) :
    (s.tick code shared).state.1 = (carryOutAll (s.lastPass code shared).changes (s.settled code shared)).state := by
  rw [(s.tick_active active code shared).1]
  rfl

/-- In a tick those tasks run that are due, each once. -/
theorem ran_lastPass (s : Scheduler κ τ) (code : TaskCode κ ρ) (shared : ρ) :
    (s.lastPass code shared).entries.map (fun e => (e.task, e.ran)) = s.aged.map fun t => (t, t.isDue) := by
  -- The entries passed and the tasks that wait are those of the tick at every step of its sweep.
  have all := Sweep.through_induction code (s.uptime + s.period)
    (motive := fun _ tasks sweep => sweep.pass.waiting = tasks ∧
      sweep.pass.visited.map (fun e => (e.task, e.ran)) ++ tasks.map (fun t => (t, t.isDue)) =
        s.aged.map fun t => (t, t.isDue))
    (by
      rintro history t rest sweep early ⟨ahead, same⟩
      refine ⟨rfl, ?_⟩
      rw [← same]
      simp [Sweep.skip, Pass.passed, Entry.ran, early])
    (by
      rintro history t rest sweep due ⟨ahead, same⟩
      have visited := (Pass.run_frame (code t.key sweep.shared) { sweep.pass with waiting := t :: rest }).2.1
      refine ⟨rfl, ?_⟩
      rw [← same]
      simp [Sweep.dispatch, Pass.passed, Entry.ran, visited, due])
    [] s.aged { pass := s.firstPass, events := s.events, tally := .none, shared } ⟨rfl, rfl⟩
  have done : (s.lastPass code shared).waiting = [] := all.1
  rw [Pass.entries, done, List.map_nil, List.append_nil]
  exact (List.append_nil _).symm.trans all.2

theorem entry_lastPass {s : Scheduler κ τ} {place : Nat} {t : Task κ} (here : s.tasks[place]? = some t)
    (code : TaskCode κ ρ) (shared : ρ) :
    ∃ e, (s.lastPass code shared).entries[place]? = some e ∧ e.task = t.aged s.period ∧
      e.ran = (t.aged s.period).isDue := by
  have same := congrArg (·[place]?) (s.ran_lastPass code shared)
  simp only [List.getElem?_map, aged, here, Option.map_some] at same
  obtain ⟨e, found, equal⟩ := Option.map_eq_some_iff.mp same
  obtain ⟨task, ran⟩ := Prod.mk.inj equal
  exact ⟨e, found, task, ran⟩

/-- The periods of the ticks processed in an action: one or none. -/
def lapse (s : Scheduler κ τ) : Action κ → List Duration
  | .start _ | .stop | .ask _ => []
  | .tick .. => if s.active then [s.period] else []

/-- An action runs the task at a place. -/
def Dispatches (s : Scheduler κ τ) (place : Nat) : Action κ → Prop
  | .start _ | .stop | .ask _ => False
  | .tick code shared => s.active = true ∧ ∃ e, (s.lastPass code shared).entries[place]? = some e ∧ e.ran = true

/-- What an action makes of the task at a place. -/
def fate (s : Scheduler κ τ) (place : Nat) : Action κ → Fate
  | .start _ | .stop => .registered place
  | .ask q => q.fate s.tasks place
  | .tick code shared =>
    if s.active then
      ((s.lastPass code shared).fate place).andThen
        (fateAmid (s.lastPass code shared).changes (s.settled code shared))
    else .registered place

/-- A task that was not due is run exactly where the time that an action takes makes it due. -/
theorem dispatches_iff {s : Scheduler κ τ} {place : Nat} {t : Task κ} (here : s.tasks[place]? = some t)
    (early : t.isDue = false) (a : Action κ) :
    s.Dispatches place a ↔ (t.aged (.total (s.lapse a))).isDue = true := by
  have stays : (t.aged (.total [])).isDue = false := by rw [Duration.total_nil, Task.aged_zero, early]
  cases a with
  | start period => simp only [Dispatches, lapse, stays, Bool.false_eq_true]
  | stop => simp only [Dispatches, lapse, stays, Bool.false_eq_true]
  | ask q => simp only [Dispatches, lapse, stays, Bool.false_eq_true]
  | tick code shared =>
    by_cases active : s.active
    · obtain ⟨e, found, -, ran⟩ := entry_lastPass here code shared
      simp only [Dispatches, lapse, active, ↓reduceIte, Duration.total_singleton, found, true_and]
      constructor
      · rintro ⟨e', same, done⟩
        obtain rfl := Option.some.inj same
        exact ran.symm.trans done
      · intro due
        exact ⟨e, rfl, ran.trans due⟩
    · simp only [Dispatches, lapse, active, Bool.false_eq_true, ↓reduceIte, false_and, stays]

variable [TickTimer τ]

/-- A task that an action neither runs nor changes is found where its fate says, older by the time
that the action takes. -/
theorem act_early {s : Scheduler κ τ} {place : Nat} {t : Task κ} (here : s.tasks[place]? = some t)
    {a : Action κ} (idle : ¬ s.Dispatches place a) (alone : s.fate place a ≠ .changed) :
    ∃ there, s.fate place a = .registered there ∧
      (s.act a).tasks[there]? = some (t.aged (.total (s.lapse a))) := by
  have stays : t.aged (.total []) = t := by rw [Duration.total_nil, Task.aged_zero]
  cases a with
  | start period =>
    refine ⟨place, rfl, ?_⟩
    rw [act, (s.start_frame period).1, lapse, stays, here]
  | stop =>
    refine ⟨place, rfl, ?_⟩
    rw [lapse, stays]
    exact here
  | ask q =>
    rw [lapse, stays]
    cases left : q.fate s.tasks place with
    | registered there => exact ⟨there, left, getElem?_registry here left⟩
    | changed => exact absurd left alone
    | ended => exact absurd left (q.fate_ne_ended s.tasks place)
  | tick code shared =>
    by_cases active : s.active
    · obtain ⟨e, found, task, -⟩ := entry_lastPass here code shared
      have unsettled : e.settlement = none := by
        have ran : ¬ e.ran = true := fun ran => idle ⟨active, e, found, ran⟩
        simpa [Entry.ran] using ran
      have kept : e.survivor? = some (t.aged s.period) := by
        rw [← task, Entry.survivor?, unsettled]
      obtain ⟨rank, settled, at_⟩ := Pass.fate_eq found kept
      simp only [fate, active, ↓reduceIte, settled, Fate.andThen] at alone ⊢
      cases left : fateAmid (s.lastPass code shared).changes (s.settled code shared) rank with
      | registered there =>
        refine ⟨there, rfl, ?_⟩
        simp only [lapse, active, ↓reduceIte, Duration.total_singleton, act, tick_settled active]
        exact getElem?_carryOutAll at_ left
      | changed => exact absurd left alone
      | ended => exact absurd left (fateAmid_ne_ended _ _ _)
    · have stopped := s.tick_stopped (by simpa using active) code shared
      refine ⟨place, by simp only [fate, active, Bool.false_eq_true, ↓reduceIte], ?_⟩
      simp only [lapse, active, Bool.false_eq_true, ↓reduceIte, stays, act, stopped.1]
      exact here

/-- What a run makes of the task at a place. -/
def follow : Scheduler κ τ → Nat → List (Action κ) → Fate
  | _, place, [] => .registered place
  | s, place, a :: rest => (s.fate place a).andThen fun there => (s.act a).follow there rest

theorem follow_append (s : Scheduler κ τ) (place : Nat) (earlier later : List (Action κ)) :
    s.follow place (earlier ++ later) =
      (s.follow place earlier).andThen fun there => (s.run earlier).follow there later := by
  induction earlier generalizing s place with
  | nil => rfl
  | cons a rest ih =>
    simp only [List.cons_append, follow, ih, Fate.andThen_assoc]
    rfl

/-- The periods of the ticks processed in a run. -/
def periods : Scheduler κ τ → List (Action κ) → List Duration
  | _, [] => []
  | s, a :: rest => s.lapse a ++ (s.act a).periods rest

theorem periods_append (s : Scheduler κ τ) (earlier later : List (Action κ)) :
    s.periods (earlier ++ later) = s.periods earlier ++ (s.run earlier).periods later := by
  induction earlier generalizing s with
  | nil => rfl
  | cons a rest ih =>
    simp only [List.cons_append, periods, ih, List.append_assoc]
    rfl

end Scheduler
end ConferenceBadge
