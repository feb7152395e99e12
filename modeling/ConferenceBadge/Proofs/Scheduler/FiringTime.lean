import ConferenceBadge.Device.ManualTimer
import ConferenceBadge.Proofs.Scheduler.Places
import Mathlib.Data.List.Induction

/-!
When a task runs. From the moment it is armed its position is the sum of the periods of the ticks
processed since, so it runs in the first tick that takes this sum past its target, and in no tick
before (`dispatched_first_past_target`). Periods may change, ticks may stop, handles may start over,
and the other tasks may do what they like.
-/
namespace ConferenceBadge.Scheduler

variable {κ τ : Type}

/-- A change that is carried out arms the task at a place with a target. -/
inductive ArmedBy (s : Scheduler κ τ) : Change κ → Nat → Duration → Prop
  | added {task : Task κ} (room : s.tasks.length < s.capacity) :
      ArmedBy s (.add task) s.tasks.length task.target
  | updated {handle : Handle} {target : Duration} {place : Nat}
      (named : Task.placeOf? handle s.tasks = some place) : ArmedBy s (.retarget handle target) place target

theorem getElem?_restartFirst_named {handle : Handle} {target : Duration} {tasks : List (Task κ)} {place : Nat}
    (named : Task.placeOf? handle tasks = some place) :
    ∃ t, (restartFirst handle target tasks)[place]? = some t ∧ t.position = .zero ∧ t.target = target := by
  obtain ⟨bound, -⟩ := List.findIdx?_eq_some_iff_getElem.mp named
  refine ⟨tasks[place].restarted target, ?_, rfl, rfl⟩
  rw [getElem?_restartFirst, if_pos named, List.getElem?_eq_getElem bound]
  rfl

variable [ToString κ]

/-- The scheduler at the end of a tick, when outcomes and some of the changes have taken effect. -/
def amid {ρ : Type} (s : Scheduler κ τ) (code : TaskCode κ ρ) (shared : ρ) (changes : List (Change κ)) :
    Scheduler κ τ :=
  (carryOutAll changes (s.settled code shared)).state

/-- An action arms the task that it leaves at a place. What is asked between ticks takes effect at
once; what a task asks, and when it wants to run again, takes effect at the end of the tick, unless a
later change of the same tick undoes it. -/
inductive Arms (s : Scheduler κ τ) : Action κ → Nat → Duration → Prop
  | added {key : κ} {target : Duration} {visibility : Visibility} {handle : Handle}
      (accepted : (s.add key target visibility).answer = .ok handle) :
      Arms s (.ask (.add key target visibility)) s.tasks.length target
  | updated {handle : Handle} {target : Duration} {place : Nat}
      (named : Task.placeOf? handle s.tasks = some place) : Arms s (.ask (.update handle target)) place target
  | rescheduled {ρ : Type} {code : TaskCode κ ρ} {shared : ρ} {t : Task κ} {target : Duration} {old place : Nat}
      (active : s.active = true) (wanted : (s.lastPass code shared).entries[old]? = some ⟨t, some (.again target)⟩)
      (left : s.fate old (.tick code shared) = .registered place) : Arms s (.tick code shared) place target
  | requested {ρ : Type} {code : TaskCode κ ρ} {shared : ρ} {before after : List (Change κ)} {c : Change κ}
      {target : Duration} {old place : Nat} (active : s.active = true)
      (queued : (s.lastPass code shared).changes = before ++ c :: after)
      (armed : (s.amid code shared before).ArmedBy c old target)
      (left : fateAmid after ((s.amid code shared before).carryOut c).state old = .registered place) :
      Arms s (.tick code shared) place target

/-- A task that a tick is asked to add starts to wait at the end of the tick. -/
theorem position_added {first p : Pass κ} {history : List (Exchange κ)} (run : first.Underway history p)
    (none : first.changes = []) {task : Task κ} (queued : .add task ∈ p.changes) : task.position = .zero := by
  induction run with
  | begun =>
    rw [none] at queued
    contradiction
  | asked q earlier ih =>
    rcases Pass.changes_registry q _ with same | ⟨c, grown, fresh⟩
    · exact ih (same ▸ queued)
    · rw [grown] at queued
      rcases List.mem_append.mp queued with old | new
      · exact ih old
      · exact fresh task (List.mem_singleton.mp new).symm
  | skipped earlier head early ih => exact ih queued
  | settled settlement earlier head due ih => exact ih queued

theorem ArmedBy.task {s : Scheduler κ τ} {c : Change κ} {place : Nat} {target : Duration}
    (armed : s.ArmedBy c place target) (fresh : ∀ task, c = .add task → task.position = .zero) :
    ∃ t, (s.carryOut c).state.tasks[place]? = some t ∧ t.position = .zero ∧ t.target = target := by
  cases armed with
  | @added task room =>
    refine ⟨task, ?_, fresh task rfl, rfl⟩
    simp only [carryOut, room, ↓reduceIte, recorded]
    exact List.getElem?_concat_length
  | @updated handle target place named =>
    have tasks : (s.carryOut (.retarget handle target)).state.tasks = restartFirst handle target s.tasks :=
      tasks_update s handle target
    rw [tasks]
    exact getElem?_restartFirst_named named

variable [TickTimer τ]

/-- A task that has been armed waits from now on. -/
theorem Arms.task {s : Scheduler κ τ} {a : Action κ} {place : Nat} {target : Duration}
    (arms : s.Arms a place target) :
    ∃ t, (s.act a).tasks[place]? = some t ∧ t.position = .zero ∧ t.target = target := by
  cases arms with
  | @added key target visibility handle accepted =>
    refine ⟨.fresh s.nextHandle key target visibility, ?_, rfl, rfl⟩
    by_cases room : s.tasks.length < s.capacity
    · simp only [act, registry, add, room, ↓reduceIte, recorded]
      exact List.getElem?_concat_length
    · simp only [add, room, ↓reduceIte] at accepted
      contradiction
  | @updated handle target place named =>
    have tasks : (s.act (.ask (.update handle target))).tasks = restartFirst handle target s.tasks :=
      tasks_update s handle target
    rw [tasks]
    exact getElem?_restartFirst_named named
  | @rescheduled ρ code shared t target old place active wanted left =>
    refine ⟨t.restarted target, ?_, rfl, rfl⟩
    obtain ⟨rank, settled, kept⟩ := Pass.fate_eq wanted (show Entry.survivor? _ = some (t.restarted target) from rfl)
    simp only [fate, active, ↓reduceIte, settled, Fate.andThen] at left
    simp only [act, s.tick_settled active]
    exact getElem?_carryOutAll kept left
  | @requested ρ code shared before after c target old place active queued armed left =>
    obtain ⟨run, -⟩ := s.underway_swept code shared
    have fresh (task : Task κ) (added : c = .add task) : task.position = .zero := by
      have member : Change.add task ∈ (s.lastPass code shared).changes := by
        rw [queued, added]
        exact List.mem_append_right _ List.mem_cons_self
      exact position_added run rfl member
    obtain ⟨t, there, position, aim⟩ := armed.task fresh
    refine ⟨t, ?_, position, aim⟩
    simp only [act, s.tick_settled active, queued, carryOutAll_append, carryOutAll, Reply.andThen]
    exact getElem?_carryOutAll there left

/-- While no more time has passed than its target, a task that nobody updated or deleted is where the
run took it, and its position is that time. -/
theorem follow_early {s : Scheduler κ τ} {place : Nat} {t : Task κ} (here : s.tasks[place]? = some t)
    {actions : List (Action κ)} (alone : s.follow place actions ≠ .changed)
    (within : t.position + .total (s.periods actions) ≤ t.target) :
    ∃ there, s.follow place actions = .registered there ∧
      (s.run actions).tasks[there]? = some (t.aged (.total (s.periods actions))) := by
  induction actions generalizing s place t with
  | nil => exact ⟨place, rfl, here.trans (congrArg some t.aged_zero.symm)⟩
  | cons a rest ih =>
    simp only [follow] at alone
    rw [periods, Duration.total_append] at within ⊢
    have later : (t.aged (.total (s.lapse a))).position + .total ((s.act a).periods rest) ≤ t.target := by
      simpa only [Task.aged, Duration.add_assoc] using within
    have early : t.isDue = false := by
      have first := Duration.le_add_right t.position (.total (s.lapse a) + .total ((s.act a).periods rest))
      exact decide_eq_false (Duration.not_lt.mpr (Nat.le_trans first within))
    have idle : ¬ s.Dispatches place a := by
      rw [dispatches_iff here early a, Task.isDue_iff]
      have first := Duration.le_add_right (t.position + .total (s.lapse a)) (.total ((s.act a).periods rest))
      exact Duration.not_lt.mpr (Nat.le_trans first later)
    obtain ⟨between, fate, found⟩ := act_early here idle (Fate.ne_changed_of_andThen alone)
    rw [fate] at alone
    obtain ⟨there, followed, at_⟩ := ih found alone later
    refine ⟨there, ?_, ?_⟩
    · simp only [follow, fate, Fate.andThen, followed]
    · rw [← Task.aged_aged]
      exact at_

/-- An action runs the task that a run has taken from a place. -/
def DispatchesAfter (s : Scheduler κ τ) (place : Nat) (actions : List (Action κ)) (next : Action κ) : Prop :=
  ∃ there, s.follow place actions = .registered there ∧ (s.run actions).Dispatches there next

/-- An action is the first to run the task that a run has taken from a place. -/
def DispatchesFirst (s : Scheduler κ τ) (place : Nat) (actions : List (Action κ)) (next : Action κ) : Prop :=
  s.DispatchesAfter place actions next ∧
    ∀ before a after, actions = before ++ a :: after → ¬ s.DispatchesAfter place before a

theorem ne_changed_of_follow_append {s : Scheduler κ τ} {place : Nat} {earlier later : List (Action κ)}
    (alone : s.follow place (earlier ++ later) ≠ .changed) : s.follow place earlier ≠ .changed := by
  rw [follow_append] at alone
  exact Fate.ne_changed_of_andThen alone

theorem total_periods_append_one (s : Scheduler κ τ) (actions : List (Action κ)) (next : Action κ) :
    Duration.total (s.periods (actions ++ [next])) =
      Duration.total (s.periods actions) + Duration.total ((s.run actions).lapse next) := by
  rw [periods_append, Duration.total_append, periods, periods, List.append_nil]

/-- While no more time has passed than its target, a task is run exactly where an action takes the
time past the target. -/
theorem dispatchesAfter_iff {s : Scheduler κ τ} {place : Nat} {t : Task κ} (here : s.tasks[place]? = some t)
    (fresh : t.position = .zero) {actions : List (Action κ)} (alone : s.follow place actions ≠ .changed)
    (within : .total (s.periods actions) ≤ t.target) (next : Action κ) :
    s.DispatchesAfter place actions next ↔ t.target < .total (s.periods (actions ++ [next])) := by
  have age : t.position + .total (s.periods actions) = .total (s.periods actions) := by
    rw [fresh, Duration.zero_add]
  obtain ⟨there, followed, found⟩ := follow_early here alone (by rwa [age])
  have early : (t.aged (.total (s.periods actions))).isDue = false := by
    refine decide_eq_false (Duration.not_lt.mpr ?_)
    simpa only [Task.aged, age] using within
  have due := dispatches_iff found early next
  rw [Task.aged_aged, ← total_periods_append_one, Task.isDue_iff] at due
  simp only [Task.aged, fresh, Duration.zero_add] at due
  rw [← due]
  constructor
  · rintro ⟨other, same, run⟩
    obtain rfl := Fate.registered.inj (followed.symm.trans same)
    exact run
  · intro run
    exact ⟨there, followed, run⟩

/-- Where more time has passed than its target, a task has been run on the way. -/
theorem dispatched_before {s : Scheduler κ τ} {place : Nat} {t : Task κ} (here : s.tasks[place]? = some t)
    (fresh : t.position = .zero) {actions : List (Action κ)} (alone : s.follow place actions ≠ .changed)
    (past : t.target < .total (s.periods actions)) :
    ∃ before a after, actions = before ++ a :: after ∧ s.DispatchesAfter place before a := by
  induction actions using List.reverseRecOn with
  | nil => exact absurd past (Nat.not_lt_zero _)
  | append_singleton earlier last ih =>
    have alone := ne_changed_of_follow_append alone
    by_cases soon : t.target < .total (s.periods earlier)
    · obtain ⟨before, a, after, parts, run⟩ := ih alone soon
      exact ⟨before, a, after ++ [last], by simp [parts], run⟩
    · have run := (dispatchesAfter_iff here fresh alone (Duration.not_lt.mp soon) last).mpr past
      exact ⟨earlier, last, [], rfl, run⟩

/-- From the moment a task is armed with a target, and as long as nobody updates or deletes it: while
the periods of the ticks processed since do not add up to more than the target they are its position;
it is run for the first time exactly in the tick that takes their sum past the target; and with the
longest target it is never run. -/
theorem dispatched_first_past_target {s : Scheduler κ τ} {armed : Action κ} {place : Nat} {target : Duration}
    (arms : s.Arms armed place target) (actions : List (Action κ))
    (alone : (s.act armed).follow place actions ≠ .changed) :
    ∃ t, (s.act armed).tasks[place]? = some t ∧ t.position = .zero ∧ t.target = target ∧
      (.total ((s.act armed).periods actions) ≤ target →
        ∃ there, (s.act armed).follow place actions = .registered there ∧
          ((s.act armed).run actions).tasks[there]? =
            some { t with position := .total ((s.act armed).periods actions) }) ∧
      (∀ next, (s.act armed).DispatchesFirst place actions next ↔
        .total ((s.act armed).periods actions) ≤ target ∧
          target < .total ((s.act armed).periods (actions ++ [next]))) ∧
      (target = .longest → ∀ next, ¬ (s.act armed).DispatchesAfter place actions next) := by
  obtain ⟨t, here, fresh, rfl⟩ := arms.task
  refine ⟨t, here, fresh, rfl, ?_, ?_, ?_⟩
  · intro within
    have age : t.position + .total ((s.act armed).periods actions) = .total ((s.act armed).periods actions) := by
      rw [fresh, Duration.zero_add]
    obtain ⟨there, followed, found⟩ := follow_early here alone (by rwa [age])
    exact ⟨there, followed, by rw [found, Task.aged, age]⟩
  · intro next
    constructor
    · rintro ⟨run, first⟩
      have within : Duration.total ((s.act armed).periods actions) ≤ t.target := by
        refine Duration.not_lt.mp fun past => ?_
        obtain ⟨before, a, after, parts, earlier⟩ := dispatched_before here fresh alone past
        exact first before a after parts earlier
      exact ⟨within, (dispatchesAfter_iff here fresh alone within next).mp run⟩
    · rintro ⟨within, past⟩
      refine ⟨(dispatchesAfter_iff here fresh alone within next).mpr past, ?_⟩
      rintro before a after rfl earlier
      -- The time up to the earlier action is part of the time up to now.
      have upTo : Duration.total ((s.act armed).periods (before ++ [a])) ≤ t.target := by
        have parts : before ++ a :: after = (before ++ [a]) ++ after := by simp
        rw [parts, periods_append, Duration.total_append] at within
        exact Nat.le_trans (Duration.le_add_right _ _) within
      have soon : Duration.total ((s.act armed).periods before) ≤ t.target := by
        rw [total_periods_append_one] at upTo
        exact Nat.le_trans (Duration.le_add_right _ _) upTo
      have past := (dispatchesAfter_iff here fresh (ne_changed_of_follow_append alone) soon a).mp earlier
      exact Duration.not_lt.mpr upTo past
  · intro longest next run
    have within : Duration.total ((s.act armed).periods actions) ≤ t.target := longest ▸ Duration.le_longest _
    have past := (dispatchesAfter_iff here fresh alone within next).mp run
    rw [longest] at past
    exact Duration.not_lt.mpr (Duration.le_longest _) past

/-- A task that always wants to run again after 25 ms. -/
def restless : TaskCode Nat Unit := fun _ _ => return (.ok (.again (.ofMillis 25)), ())

/-- A scheduler with one task, which is due in the next tick. -/
def restlessOnly : Scheduler Nat ManualTimer :=
  (empty 4 .stopped).run [.start (.ofMillis 10), .ask (.add 0 .zero .visible)]

/-- A tick, a pause that ignores a tick, and a longer period from then on. -/
def pausing : List (Action Nat) := [.tick restless (), .stop, .tick restless (), .start (.ofMillis 20)]

theorem dispatched_first_past_target_pausing :
    let armed : Action Nat := .tick restless ()
    restlessOnly.Arms armed 0 (.ofMillis 25) ∧ (restlessOnly.act armed).follow 0 pausing ≠ .changed ∧
      (restlessOnly.act armed).periods pausing = [.ofMillis 10] ∧
      (restlessOnly.act armed).DispatchesFirst 0 pausing (.tick restless ()) := by
  have wanted : (restlessOnly.lastPass restless ()).entries[0]? =
      some ⟨⟨.first, 0, .ofMillis 10, .zero, .visible⟩, some (.again (.ofMillis 25))⟩ := rfl
  have arms : restlessOnly.Arms (.tick restless ()) 0 (.ofMillis 25) := .rescheduled rfl wanted rfl
  obtain ⟨t, -, -, -, -, first, -⟩ := dispatched_first_past_target arms pausing (by decide)
  exact ⟨arms, by decide, rfl, (first (.tick restless ())).mpr ⟨by decide, by decide⟩⟩

end ConferenceBadge.Scheduler
