import ConferenceBadge.Proofs.Scheduler.Registration

/-!
What a tick leaves of one task, told by its handle alone. Other handles may be used twice, as they may once the
numbers have started over, and the registry may be full: the changes that are carried out do to the only task of a
handle what they say (`Scheduler.named_carryOutAll`), so the tick leaves of it what its own settlement and the changes
about it make of it (`Pass.Single.named_commit`), which is what a running task sees (`Pass.Single.named_survivors`).
-/
namespace ConferenceBadge

variable {κ τ : Type}

namespace Task

variable {handle : Handle} {t : Task κ} {tasks : List (Task κ)}

/-- The tasks with a handle, in order. -/
def named (handle : Handle) (tasks : List (Task κ)) : List (Task κ) := tasks.filter (·.handle = handle)

theorem mem_named : t ∈ named handle tasks ↔ t ∈ tasks ∧ t.handle = handle := by simp [named]

theorem named_cons_same (same : t.handle = handle) : named handle (t :: tasks) = t :: named handle tasks :=
  List.filter_cons_of_pos (by simpa using same)

theorem named_cons_other (other : t.handle ≠ handle) : named handle (t :: tasks) = named handle tasks :=
  List.filter_cons_of_neg (by simpa using other)

theorem named_append (tasks more : List (Task κ)) :
    named handle (tasks ++ more) = named handle tasks ++ named handle more := List.filter_append _ _

/-- Behind the only task of a handle there is no other. -/
theorem named_of_single (same : t.handle = handle) (single : (named handle (t :: tasks)).length ≤ 1) :
    named handle tasks = [] := by
  rw [named_cons_same same, List.length_cons] at single
  exact List.length_eq_zero_iff.mp (by omega)

theorem mem_handles_iff {tasks : List (Task κ)} : handle ∈ tasks.map (·.handle) ↔ named handle tasks ≠ [] := by
  simp [named, List.filter_eq_nil_iff]

theorem named_filterMap {α : Type} {f : α → Option (Task κ)} {handleOf : α → Handle} {all : List α}
    (keeps : ∀ a after, f a = some after → after.handle = handleOf a) :
    named handle (all.filterMap f) = (all.filter (handleOf · = handle)).filterMap f := by
  rw [named, List.filter_filterMap, List.filterMap_filter]
  refine List.filterMap_congr fun a _ => ?_
  cases left : f a with
  | none => simp
  | some after =>
    rw [← keeps a after left]
    by_cases same : after.handle = handle <;> simp [Option.filter, same]

end Task

namespace Scheduler

variable {handle named : Handle} {tasks : List (Task κ)}

theorem named_restartFirst_other (other : named ≠ handle) (target : Duration) (tasks : List (Task κ)) :
    Task.named handle (restartFirst named target tasks) = Task.named handle tasks := by
  induction tasks with
  | nil => rfl
  | cons t rest ih =>
    rw [restartFirst]
    split
    · next first =>
      have skipped : t.handle ≠ handle := fun same => other (first.symm.trans same)
      rw [Task.named_cons_other skipped]
      exact Task.named_cons_other skipped
    · by_cases same : t.handle = handle
      · rw [Task.named_cons_same same, Task.named_cons_same same, ih]
      · rw [Task.named_cons_other same, Task.named_cons_other same, ih]

/-- The only task of a handle is the one that is re-armed under it. -/
theorem named_restartFirst_own (target : Duration) (single : (Task.named handle tasks).length ≤ 1) :
    Task.named handle (restartFirst handle target tasks) = (Task.named handle tasks).map (·.restarted target) := by
  induction tasks with
  | nil => rfl
  | cons t rest ih =>
    rw [restartFirst]
    split
    · next first =>
      have again : (t.restarted target).handle = handle := first
      rw [Task.named_cons_same again, Task.named_cons_same first, Task.named_of_single first single]
      rfl
    · next skipped =>
      rw [Task.named_cons_other skipped] at single ⊢
      rw [Task.named_cons_other skipped, ih single]

theorem named_dropFirst_other (other : named ≠ handle) (tasks : List (Task κ)) :
    Task.named handle (dropFirst named tasks) = Task.named handle tasks := by
  induction tasks with
  | nil => rfl
  | cons t rest ih =>
    rw [dropFirst] at ih ⊢
    by_cases first : t.handle = named
    · have skipped : t.handle ≠ handle := fun same => other (first.symm.trans same)
      rw [List.eraseP_cons_of_pos (by simpa using first), Task.named_cons_other skipped]
    · rw [List.eraseP_cons_of_neg (by simpa using first)]
      by_cases same : t.handle = handle
      · rw [Task.named_cons_same same, Task.named_cons_same same, ih]
      · rw [Task.named_cons_other same, Task.named_cons_other same, ih]

/-- The only task of a handle is the one that is removed under it. -/
theorem named_dropFirst_own (single : (Task.named handle tasks).length ≤ 1) :
    Task.named handle (dropFirst handle tasks) = [] := by
  induction tasks with
  | nil => rfl
  | cons t rest ih =>
    rw [dropFirst] at ih ⊢
    by_cases first : t.handle = handle
    · rw [List.eraseP_cons_of_pos (by simpa using first)]
      exact Task.named_of_single first single
    · rw [Task.named_cons_other first] at single
      rw [List.eraseP_cons_of_neg (by simpa using first), Task.named_cons_other first]
      exact ih single

variable [ToString κ]

/-- Carrying out a change does to the only task of a handle what the change says. -/
theorem named_carryOut {s : Scheduler κ τ} {c : Change κ} (single : (Task.named handle s.tasks).length ≤ 1)
    (foreign : ∀ task, c = .add task → task.handle ≠ handle) :
    Task.named handle (s.carryOut c).state.tasks = (Task.named handle s.tasks).filterMap (Change.applied? · c) := by
  have own : ∀ u ∈ Task.named handle s.tasks, u.handle = handle := fun u member => (Task.mem_named.mp member).2
  -- A change about another handle leaves each of the tasks as it is.
  have others (apart : c.handle ≠ handle) :
      (Task.named handle s.tasks).filterMap (Change.applied? · c) = Task.named handle s.tasks :=
    Change.filterMap_applied?_other fun u member same => apart (same.trans (own u member))
  cases c with
  | add task =>
    have apart := foreign task rfl
    rw [others apart]
    simp only [carryOut]
    split
    · simp only [recorded]
      rw [Task.named_append, Task.named_cons_other apart]
      exact List.append_nil _
    · rfl
  | retarget named target =>
    show Task.named handle (s.update named target).state.tasks = _
    rw [tasks_update]
    by_cases same : named = handle
    · subst same
      rw [named_restartFirst_own target single, ← List.filterMap_eq_map]
      exact List.filterMap_congr fun u member => (congrArg some (if_pos (own u member).symm)).symm
    · rw [named_restartFirst_other same, others same]
  | delete named =>
    show Task.named handle (s.delete named).state.tasks = _
    rw [tasks_delete]
    by_cases same : named = handle
    · subst same
      rw [named_dropFirst_own single]
      exact (List.filterMap_eq_nil_iff.mpr fun u member => if_pos (own u member).symm).symm
    · rw [named_dropFirst_other same, others same]

/-- Carrying out changes does to the only task of a handle what the changes say, one after the other. -/
theorem named_carryOutAll {s : Scheduler κ τ} {changes : List (Change κ)}
    (single : (Task.named handle s.tasks).length ≤ 1) (foreign : ∀ task, .add task ∈ changes → task.handle ≠ handle) :
    Task.named handle (carryOutAll changes s).state.tasks =
      (Task.named handle s.tasks).filterMap fun u => changes.foldlM Change.applied? u := by
  induction changes generalizing s with
  | nil => exact List.filterMap_some.symm
  | cons c rest ih =>
    have first := named_carryOut single fun task is => foreign task (is ▸ List.mem_cons_self)
    have fewer : (Task.named handle (s.carryOut c).state.tasks).length ≤ 1 := by
      rw [first]
      exact Nat.le_trans (List.length_filterMap_le _ _) single
    show Task.named handle (carryOutAll rest (s.carryOut c).state).state.tasks = _
    rw [ih fewer fun task member => foreign task (List.mem_cons_of_mem c member), first, List.filterMap_filterMap]
    rfl

end Scheduler

namespace Pass

/-- A task of the tick whose handle nothing else in the tick has. -/
structure Single (p : Pass κ) (e : Entry κ) : Prop where
  there : e ∈ p.entries
  alone : p.handles.count e.task.handle = 1

namespace Single

variable {p : Pass κ} {e : Entry κ}

theorem of_waiting {t : Task κ} {rest : List (Task κ)} (head : p.waiting = t :: rest)
    (alone : p.handles.count t.handle = 1) : p.Single ⟨t, none⟩ := by
  refine ⟨List.mem_append_right _ (List.mem_map.mpr ⟨t, ?_, rfl⟩), alone⟩
  rw [head]
  exact List.mem_cons_self

/-- A task that the pass goes over stays the only one with its handle. -/
theorem passed {t : Task κ} {rest : List (Task κ)} (head : p.waiting = t :: rest)
    (alone : p.handles.count t.handle = 1) (settlement : Settlement) :
    (p.passed ⟨t, some settlement⟩ rest).Single ⟨t, some settlement⟩ := by
  refine ⟨List.mem_append_left _ (List.mem_append_right _ List.mem_cons_self), ?_⟩
  rw [handles_passed head]
  exact alone

/-- Of the tasks of the tick it is the only one with its handle, and no task that is added has it. -/
theorem split (single : p.Single e) :
    p.entries.filter (·.task.handle = e.task.handle) = [e] ∧
      Task.named e.task.handle (p.changes.filterMap Change.added?) = [] := by
  have member : e ∈ p.entries.filter (·.task.handle = e.task.handle) :=
    List.mem_filter.mpr ⟨single.there, decide_eq_true rfl⟩
  have found := List.length_pos_of_mem member
  have alone : (p.entries.filter (·.task.handle = e.task.handle)).length +
      (Task.named e.task.handle (p.changes.filterMap Change.added?)).length = 1 := by
    rw [← single.alone, handles, List.map_append, List.count_append, List.map_map]
    simp only [List.count, List.countP_map, Task.named, ← List.countP_eq_length_filter, Function.comp_def,
      beq_eq_decide]
  obtain ⟨only, whole⟩ := List.length_eq_one_iff.mp (Nat.le_antisymm (Nat.le.intro alone) found)
  rw [whole] at member alone ⊢
  obtain rfl := List.mem_singleton.mp member
  rw [List.length_singleton] at alone
  exact ⟨rfl, List.length_eq_zero_iff.mp (by omega)⟩

theorem foreign (single : p.Single e) : ∀ task, .add task ∈ p.changes → task.handle ≠ e.task.handle := by
  intro task member same
  have added : task ∈ p.changes.filterMap Change.added? := List.mem_filterMap.mpr ⟨_, member, rfl⟩
  have found := Task.mem_named.mpr ⟨added, same⟩
  rw [single.split.2] at found
  contradiction

/-- Under its handle the outcomes leave what is left of the task. -/
theorem named_settled (single : p.Single e) :
    Task.named e.task.handle (p.entries.filterMap Entry.survivor?) = e.survivor?.toList := by
  rw [Task.named_filterMap fun _ _ => handle_of_survivor?, single.split.1]
  cases left : e.survivor? <;> simp [left]

/-- Under its handle the end of the tick leaves what changes leave of the task once it is settled. -/
theorem named_commit [ToString κ] (single : p.Single e) (s : Scheduler κ τ) :
    Task.named e.task.handle (s.commit p).state.tasks =
      e.survivor?.toList.filterMap fun u => p.changes.foldlM Change.applied? u := by
  have few : (Task.named e.task.handle (p.entries.filterMap Entry.survivor?)).length ≤ 1 := by
    rw [single.named_settled]
    exact Option.length_toList_le
  rw [← single.named_settled]
  exact Scheduler.named_carryOutAll few single.foreign

/-- The tasks that are seen to be left are the same under its handle. -/
theorem named_survivors (single : p.Single e) :
    Task.named e.task.handle p.survivors =
      e.survivor?.toList.filterMap fun u => p.changes.foldlM Change.applied? u := by
  rw [survivors, Task.named_filterMap fun _ _ => Change.handle_of_foldlM]
  show (Task.named e.task.handle (_ ++ _)).filterMap _ = _
  rw [Task.named_append, single.named_settled, single.split.2, List.append_nil]

theorem contains_commit [ToString κ] (single : p.Single e) (s : Scheduler κ τ) :
    (s.commit p).state.contains e.task.handle = p.contains e.task.handle := by
  rw [Bool.eq_iff_iff, Scheduler.contains_iff, Pass.contains_iff, Task.mem_handles_iff, Task.mem_handles_iff,
    single.named_commit, single.named_survivors]

/-- While the task runs it is seen to be left unless its removal was asked for. -/
theorem contains_iff {t : Task κ} (single : p.Single ⟨t, none⟩) :
    p.contains t.handle = true ↔ t.handle ∉ p.changes.filterMap Change.deleted? := by
  rw [← Change.foldlM_applied?_isSome, Pass.contains_iff, Task.mem_handles_iff, single.named_survivors]
  show ([t].filterMap _) ≠ [] ↔ _
  cases left : p.changes.foldlM Change.applied? t <;> simp [left]

/-- A task that waits again, and that nobody asked to remove, waits for the last target that it was given. -/
theorem named_commit_again [ToString κ] {t : Task κ} {target : Duration} (single : p.Single ⟨t, some (.again target)⟩)
    (stays : t.handle ∉ p.changes.filterMap Change.deleted?) (s : Scheduler κ τ) :
    Task.named t.handle (s.commit p).state.tasks =
      [t.restarted ((p.changes.filterMap (Change.retargeted? t.handle)).getLast?.getD target)] := by
  have left : p.changes.foldlM Change.applied? (t.restarted target) =
      some (t.restarted ((p.changes.filterMap (Change.retargeted? t.handle)).getLast?.getD target)) :=
    Change.foldlM_applied?_fresh stays t.key target t.visibility
  rw [single.named_commit]
  exact List.filterMap_cons_some left

end Single
end Pass
end ConferenceBadge
