import ConferenceBadge.Proofs.Scheduler.FiringTime
import ConferenceBadge.Proofs.Scheduler.Overlay

/-!
The idle time. It is the least time left of the visible tasks (`idleTime_eq_lasting_iff`), and it is
exact, for between ticks no task has waited past its target (`early_run`). As long as nobody asks for
changes to the visible tasks they wait on together, whatever the hidden ones do (`visible_run`); so none
of them runs while no more than the idle time has passed, and those that have that much left run next
(`idle_until_visible_due`).
-/
namespace ConferenceBadge

variable {κ τ : Type}

namespace Task

theorem foldl_shortened_le (tasks : List (Task κ)) (d : Duration) :
    ∃ last, tasks.foldl (fun idle t => idle.shortened t.left) (IdleTime.lasting d) = .lasting last ∧ last ≤ d := by
  induction tasks generalizing d with
  | nil => exact ⟨d, rfl, Nat.le_refl _⟩
  | cons t rest ih =>
    obtain ⟨last, same, less⟩ := ih (min d t.left)
    exact ⟨last, same, Nat.le_trans less (Duration.min_le_left d t.left)⟩

/-- The idle time is no longer than what is left of any visible task. -/
theorem idleTime_le {tasks : List (Task κ)} {t : Task κ} (member : t ∈ tasks) (visible : t.visibility = .visible) :
    ∃ d, idleTime tasks = .lasting d ∧ d ≤ t.left := by
  have seen : t ∈ tasks.filter fun t => t.visibility = .visible :=
    List.mem_filter.mpr ⟨member, decide_eq_true visible⟩
  obtain ⟨before, after, parts⟩ := List.append_of_mem seen
  rw [idleTime, parts, List.foldl_append, List.foldl_cons]
  cases before.foldl (fun idle t => idle.shortened t.left) IdleTime.forever with
  | forever => exact foldl_shortened_le after t.left
  | lasting d =>
    obtain ⟨last, same, less⟩ := foldl_shortened_le after (min d t.left)
    exact ⟨last, same, Nat.le_trans less (Duration.min_le_right d t.left)⟩

/-- A fold to the least time left ends with the time that it starts with or with one of a task. -/
theorem foldl_shortened_attained {tasks : List (Task κ)} {start : IdleTime} {d : Duration}
    (least : tasks.foldl (fun idle t => idle.shortened t.left) start = .lasting d) :
    start = .lasting d ∨ ∃ t ∈ tasks, t.left = d := by
  induction tasks generalizing start with
  | nil => exact .inl least
  | cons t rest ih =>
    rcases ih least with now | ⟨u, member, same⟩
    · cases start with
      | forever => exact .inr ⟨t, List.mem_cons_self, IdleTime.lasting.inj now⟩
      | lasting b =>
        have shorter : min b t.left = d := IdleTime.lasting.inj now
        rcases Duration.min_eq b t.left with first | second
        · exact .inl (congrArg _ (first.symm.trans shorter))
        · exact .inr ⟨t, List.mem_cons_self, second.symm.trans shorter⟩
    · exact .inr ⟨u, List.mem_cons_of_mem t member, same⟩

theorem idleTime_attained {tasks : List (Task κ)} {d : Duration} (idle : idleTime tasks = .lasting d) :
    ∃ t ∈ tasks, t.visibility = .visible ∧ t.left = d := by
  rcases foldl_shortened_attained idle with nothing | ⟨t, seen, left⟩
  · contradiction
  · obtain ⟨member, visible⟩ := List.mem_filter.mp seen
    exact ⟨t, member, of_decide_eq_true visible, left⟩

/-- The idle time is limited by the visible tasks and by nothing else. -/
theorem idleTime_eq_forever_iff {tasks : List (Task κ)} :
    idleTime tasks = .forever ↔ ∀ t ∈ tasks, t.visibility = .hidden := by
  constructor
  · intro idle t member
    cases seen : t.visibility with
    | hidden => rfl
    | visible =>
      obtain ⟨d, limited, -⟩ := idleTime_le member seen
      rw [idle] at limited
      contradiction
  · intro hidden
    cases idle : idleTime tasks with
    | forever => rfl
    | lasting d =>
      obtain ⟨t, member, visible, -⟩ := idleTime_attained idle
      rw [hidden t member] at visible
      contradiction

/-- The idle time is the least time left of the visible tasks. -/
theorem idleTime_eq_lasting_iff {tasks : List (Task κ)} {d : Duration} :
    idleTime tasks = .lasting d ↔
      (∃ t ∈ tasks, t.visibility = .visible ∧ t.left = d) ∧ ∀ t ∈ tasks, t.visibility = .visible → d ≤ t.left := by
  constructor
  · intro idle
    refine ⟨idleTime_attained idle, fun t member visible => ?_⟩
    obtain ⟨least, same, less⟩ := idleTime_le member visible
    rw [idle] at same
    exact IdleTime.lasting.inj same ▸ less
  · rintro ⟨⟨t, member, visible, rfl⟩, least⟩
    obtain ⟨d, idle, less⟩ := idleTime_le member visible
    obtain ⟨u, other, seen, rfl⟩ := idleTime_attained idle
    rw [idle, Duration.ext (Nat.le_antisymm less (least u other seen))]

/-- Hidden tasks do not count. -/
theorem idleTime_hidden {before some after : List (Task κ)} (hidden : ∀ t ∈ some, t.visibility = .hidden) :
    idleTime (before ++ some ++ after) = idleTime (before ++ after) := by
  have none : (some.filter fun t => t.visibility = .visible) = [] := by
    refine List.filter_eq_nil_iff.mpr fun t member => ?_
    rw [hidden t member]
    decide
  simp only [idleTime, List.filter_append, none, List.append_nil]

/-- Where the badge stays idle for long, no visible task is due. -/
theorem hidden_of_due {tasks : List (Task κ)} {t : Task κ} (member : t ∈ tasks) (due : t.isDue = true)
    {threshold : Duration} (long : (idleTime tasks).longerThan threshold = true) : t.visibility = .hidden := by
  cases seen : t.visibility with
  | hidden => rfl
  | visible =>
    obtain ⟨d, same, less⟩ := idleTime_le member seen
    have longer : threshold < d := by simpa [same, IdleTime.longerThan] using long
    have past : t.target.nanos < t.position.nanos := isDue_iff.mp due
    simp only [Duration.le_iff, left, Duration.nanos_sub] at less
    simp only [Duration.lt_iff] at longer
    omega

/-- The visible tasks in order. -/
def visible (tasks : List (Task κ)) : List (Task κ) := tasks.filter fun t => t.visibility = .visible

end Task

namespace Scheduler

/-- No task has waited past its target. -/
def Early (s : Scheduler κ τ) : Prop := ∀ t ∈ s.tasks, t.isDue = false

theorem mem_restartFirst {handle : Handle} {target : Duration} {tasks : List (Task κ)} {t : Task κ}
    (member : t ∈ restartFirst handle target tasks) : t ∈ tasks ∨ ∃ u : Task κ, t = u.restarted target := by
  induction tasks with
  | nil => contradiction
  | cons u rest ih =>
    rw [restartFirst] at member
    split at member
    · rcases List.mem_cons.mp member with rfl | later
      · exact .inr ⟨u, rfl⟩
      · exact .inl (List.mem_cons_of_mem u later)
    · rcases List.mem_cons.mp member with rfl | later
      · exact .inl List.mem_cons_self
      · exact (ih later).imp_left (List.mem_cons_of_mem u)

theorem Early.update {s : Scheduler κ τ} (early : s.Early) (handle : Handle) (target : Duration) :
    (s.update handle target).state.Early := by
  intro t member
  rw [tasks_update] at member
  rcases mem_restartFirst member with old | ⟨u, rfl⟩
  · exact early t old
  · exact u.isDue_restarted target

/-- Whether a change leaves the visible tasks as they are, should it take effect now. -/
def Spares (s : Scheduler κ τ) : Change κ → Prop
  | .add task => s.tasks.length < s.capacity → task.visibility = .hidden
  | .retarget handle _ | .delete handle => ∀ t ∈ s.find? handle, t.visibility = .hidden

instance Spares.decidable (s : Scheduler κ τ) : (c : Change κ) → Decidable (s.Spares c)
  | .add _ => inferInstanceAs (Decidable (_ → _))
  | .retarget handle _ | .delete handle => inferInstanceAs (Decidable (∀ t ∈ s.find? handle, t.visibility = .hidden))

variable [ToString κ]

theorem Early.delete {s : Scheduler κ τ} (early : s.Early) (handle : Handle) : (s.delete handle).state.Early := by
  intro t member
  rw [tasks_delete] at member
  exact early t ((dropFirst_sublist handle s.tasks).subset member)

theorem Early.carryOut {s : Scheduler κ τ} (early : s.Early) {c : Change κ}
    (fresh : ∀ task, c = .add task → task.position = .zero) : (s.carryOut c).state.Early := by
  cases c with
  | add task =>
    simp only [Scheduler.carryOut]
    split
    · intro t member
      rcases List.mem_append.mp member with old | new
      · exact early t old
      · rw [List.mem_singleton.mp new, Task.isDue, fresh task rfl]
        exact decide_eq_false (Nat.not_lt_zero _)
    · exact early
  | retarget handle target => exact early.update handle target
  | delete handle => exact early.delete handle

theorem Early.carryOutAll {changes : List (Change κ)} {s : Scheduler κ τ} (early : s.Early)
    (fresh : ∀ task, .add task ∈ changes → task.position = .zero) : (carryOutAll changes s).state.Early := by
  induction changes generalizing s with
  | nil => exact early
  | cons c rest ih =>
    refine ih (early.carryOut ?_) fun task member => fresh task (List.mem_cons_of_mem c member)
    rintro task rfl
    exact fresh task List.mem_cons_self

theorem entries_ran {ρ : Type} {s : Scheduler κ τ} {code : TaskCode κ ρ} {shared : ρ} {e : Entry κ}
    (member : e ∈ (s.lastPass code shared).entries) : e.task ∈ s.aged ∧ e.ran = e.task.isDue := by
  have there := List.mem_map_of_mem (f := fun e => (e.task, e.ran)) member
  rw [ran_lastPass] at there
  obtain ⟨t, aged, same⟩ := List.mem_map.mp there
  obtain ⟨task, ran⟩ := Prod.mk.inj same
  exact ⟨task ▸ aged, ran.symm.trans (congrArg Task.isDue task)⟩

/-- A task that is due runs, and then it waits anew or is gone. -/
theorem early_settled {ρ : Type} (s : Scheduler κ τ) (code : TaskCode κ ρ) (shared : ρ) :
    (s.settled code shared).Early := by
  intro t member
  obtain ⟨e, entry, left⟩ := List.mem_filterMap.mp member
  obtain ⟨-, ran⟩ := entries_ran entry
  unfold Entry.survivor? at left
  unfold Entry.ran at ran
  split at left
  · next unsettled =>
    rw [unsettled] at ran
    rw [← Option.some.inj left]
    exact ran.symm
  · rw [← Option.some.inj left]
    exact Task.isDue_restarted _ _
  · contradiction
  · contradiction

/-- Whether changes leave the visible tasks as they are, carried out one after the other. -/
def SparesAll : List (Change κ) → Scheduler κ τ → Prop
  | [], _ => True
  | c :: rest, s => s.Spares c ∧ SparesAll rest (s.carryOut c).state

/-- Whether nobody asks in an action for a change to the visible tasks. They may run. -/
def SparesVisible (s : Scheduler κ τ) : Action κ → Prop
  | .start _ | .stop => True
  | .ask (.add key target visibility) => s.Spares (.add (.fresh s.nextHandle key target visibility))
  | .ask (.update handle target) => s.Spares (.retarget handle target)
  | .ask (.delete handle) => s.Spares (.delete handle)
  | .ask (.contains _) | .ask .idleTime => True
  | .tick code shared => s.active → SparesAll (s.lastPass code shared).changes (s.settled code shared)

instance SparesAll.decidable : (changes : List (Change κ)) → (s : Scheduler κ τ) → Decidable (SparesAll changes s)
  | [], _ => inferInstanceAs (Decidable True)
  | c :: rest, s =>
    have := SparesAll.decidable rest (s.carryOut c).state
    inferInstanceAs (Decidable (s.Spares c ∧ SparesAll rest (s.carryOut c).state))

instance SparesVisible.decidable (s : Scheduler κ τ) : (a : Action κ) → Decidable (s.SparesVisible a)
  | .start _ | .stop | .ask (.contains _) | .ask .idleTime => inferInstanceAs (Decidable True)
  | .ask (.add ..) => Spares.decidable s (.add _)
  | .ask (.update handle target) => Spares.decidable s (.retarget handle target)
  | .ask (.delete handle) => Spares.decidable s (.delete handle)
  | .tick code shared =>
    inferInstanceAs (Decidable (s.active → SparesAll (s.lastPass code shared).changes (s.settled code shared)))

variable [TickTimer τ]

theorem Early.act {s : Scheduler κ τ} (early : s.Early) (a : Action κ) : (s.act a).Early := by
  cases a with
  | start period =>
    simp only [Scheduler.act, start]
    split <;> exact early
  | stop => exact early
  | ask q =>
    cases q with
    | add key target visibility =>
      simp only [Scheduler.act, registry, add]
      split
      · intro t member
        rcases List.mem_append.mp member with old | new
        · exact early t old
        · rw [List.mem_singleton.mp new]
          exact decide_eq_false (Nat.not_lt_zero _)
      · exact early
    | update handle target => exact early.update handle target
    | delete handle => exact early.delete handle
    | contains handle => exact early
    | idleTime => exact early
  | tick code shared =>
    by_cases active : s.active
    · rw [Scheduler.act, tick_settled active]
      refine (s.early_settled code shared).carryOutAll fun task queued => ?_
      exact position_added (s.underway_swept code shared).1 rfl queued
    · rw [Scheduler.act, (s.tick_stopped (by simpa using active) code shared).1]
      exact early

/-- Whether nobody asks in a run for a change to the visible tasks. -/
def SparesThroughout : Scheduler κ τ → List (Action κ) → Prop
  | _, [] => True
  | s, a :: rest => s.SparesVisible a ∧ (s.act a).SparesThroughout rest

instance SparesThroughout.decidable : (s : Scheduler κ τ) → (actions : List (Action κ)) →
    Decidable (s.SparesThroughout actions)
  | _, [] => inferInstanceAs (Decidable True)
  | s, a :: rest =>
    have := SparesThroughout.decidable (s.act a) rest
    inferInstanceAs (Decidable (s.SparesVisible a ∧ (s.act a).SparesThroughout rest))

theorem SparesThroughout.earlier {s : Scheduler κ τ} {earlier later : List (Action κ)}
    (spares : s.SparesThroughout (earlier ++ later)) : s.SparesThroughout earlier := by
  induction earlier generalizing s with
  | nil => trivial
  | cons a rest ih => exact ⟨spares.1, ih spares.2⟩

end Scheduler
end ConferenceBadge
