import ConferenceBadge.Device.ManualTimer
import ConferenceBadge.Proofs.Scheduler.Owners
import ConferenceBadge.Proofs.Scheduler.Run
import Mathlib.Data.List.Induction
import Mathlib.Data.List.Nodup

/-!
What a task sees in the middle of a tick. The survivors lay all changes over each task at once; the
end of a tick carries them out one after the other on the whole list. Both give the same tasks as
long as handles name one task each and no change is older than the task it is about
(`carryOutAll_eq_overlaid`), and that is so in every run that has not used up the handles
(`Pass.Sound`, `Scheduler.Sound`).
-/
namespace ConferenceBadge

variable {κ τ ρ : Type}

namespace Change

/-- The handle that a change is about. -/
def handle : Change κ → Handle
  | add task => task.handle
  | retarget handle _ => handle
  | delete handle => handle

theorem applied?_other {c : Change κ} {t : Task κ} (other : c.handle ≠ t.handle) :
    c.applied? t = some t := by
  cases c with
  | add task => rfl
  | retarget handle target => exact congrArg some (if_neg other)
  | delete handle => exact if_neg other

theorem identity_of_applied? {c : Change κ} {t after : Task κ} (left : c.applied? t = some after) :
    after.identity = t.identity := by
  cases c with
  | add task => exact congrArg Task.identity (Option.some.inj left).symm
  | retarget handle target =>
    simp only [applied?, Option.some.injEq] at left
    subst left
    split <;> rfl
  | delete handle =>
    simp only [applied?] at left
    split at left
    · contradiction
    · exact congrArg Task.identity (Option.some.inj left).symm

theorem handle_of_applied? {c : Change κ} {t after : Task κ} (left : c.applied? t = some after) :
    after.handle = t.handle := Task.handle_of_identity (identity_of_applied? left)

theorem foldlM_applied?_other {changes : List (Change κ)} {t : Task κ}
    (others : ∀ c ∈ changes, c.handle ≠ t.handle) : changes.foldlM applied? t = some t := by
  induction changes with
  | nil => rfl
  | cons c rest ih =>
    rw [List.foldlM_cons, applied?_other (others c List.mem_cons_self)]
    exact ih fun later member => others later (List.mem_cons_of_mem c member)

theorem identity_of_foldlM {changes : List (Change κ)} {t after : Task κ}
    (left : changes.foldlM applied? t = some after) : after.identity = t.identity := by
  induction changes generalizing t with
  | nil => exact congrArg Task.identity (Option.some.inj left).symm
  | cons c rest ih =>
    rw [List.foldlM_cons] at left
    obtain ⟨between, first, later⟩ := Option.bind_eq_some_iff.mp left
    exact (ih later).trans (identity_of_applied? first)

theorem handle_of_foldlM {changes : List (Change κ)} {t after : Task κ}
    (left : changes.foldlM applied? t = some after) : after.handle = t.handle :=
  Task.handle_of_identity (identity_of_foldlM left)

/-- The tasks that changes leave: those there were and those added, each after every change. -/
def overlaid (changes : List (Change κ)) (base : List (Task κ)) : List (Task κ) :=
  (base ++ changes.filterMap added?).filterMap fun t => changes.foldlM applied? t

theorem handles_filterMap_sublist {f : Task κ → Option (Task κ)}
    (keeps : ∀ t after, f t = some after → after.handle = t.handle) (tasks : List (Task κ)) :
    ((tasks.filterMap f).map (·.handle)).Sublist (tasks.map (·.handle)) := by
  induction tasks with
  | nil => exact List.Sublist.refl _
  | cons t rest ih =>
    cases left : f t with
    | none =>
      rw [List.filterMap_cons_none left]
      exact ih.cons _
    | some after =>
      rw [List.filterMap_cons_some left, List.map_cons, List.map_cons, keeps t after left]
      exact ih.cons_cons _

/-- Changes bring in no handles but those of the tasks they add. -/
theorem handles_overlaid_sublist (changes : List (Change κ)) (base : List (Task κ)) :
    ((overlaid changes base).map (·.handle)).Sublist
      ((base ++ changes.filterMap added?).map (·.handle)) :=
  handles_filterMap_sublist (fun _ _ => handle_of_foldlM) _

/-- What one more change does to the tasks that were left before. -/
theorem overlaid_append_one (changes : List (Change κ)) (base : List (Task κ)) (c : Change κ)
    (fresh : ∀ task, c = add task → ∀ earlier ∈ changes, earlier.handle ≠ task.handle) :
    overlaid (changes ++ [c]) base =
      (overlaid changes base).filterMap (applied? · c) ++ (added? c).toList := by
  have both (t : Task κ) : (changes ++ [c]).foldlM applied? t =
      (changes.foldlM applied? t).bind (applied? · c) := by
    rw [List.foldlM_append]
    simp only [List.foldlM_cons, List.foldlM_nil, bind_pure]
    rfl
  have added : (changes ++ [c]).filterMap added? = changes.filterMap added? ++ (added? c).toList := by
    rw [List.filterMap_append]
    cases c <;> rfl
  rw [overlaid, added, ← List.append_assoc, List.filterMap_append]
  congr 1
  · simp only [overlaid, both, List.filterMap_filterMap]
  · cases c with
    | add task =>
      have whole := foldlM_applied?_other (fresh task rfl)
      simp [added?, both, whole, applied?]
    | retarget handle target => rfl
    | delete handle => rfl

theorem filterMap_applied?_other {c : Change κ} {tasks : List (Task κ)}
    (others : ∀ t ∈ tasks, c.handle ≠ t.handle) : tasks.filterMap (applied? · c) = tasks := by
  rw [List.filterMap_congr fun t member => applied?_other (others t member)]
  exact List.filterMap_some

end Change

namespace Scheduler

open Change (overlaid)

/-- Where handles name one task each, re-arming the first task of a handle is what the change leaves
of each task. -/
theorem restartFirst_eq_filterMap (handle : Handle) (target : Duration) {tasks : List (Task κ)}
    (distinct : (tasks.map (·.handle)).Nodup) :
    restartFirst handle target tasks = tasks.filterMap (Change.applied? · (.retarget handle target)) := by
  induction tasks with
  | nil => rfl
  | cons t rest ih =>
    obtain ⟨alone, distinct⟩ := List.nodup_cons.mp distinct
    rw [restartFirst]
    by_cases same : t.handle = handle
    · have others : ∀ u ∈ rest, (Change.retarget handle target : Change κ).handle ≠ u.handle :=
        fun u member equal => alone (List.mem_map.mpr ⟨u, member, equal.symm.trans same.symm⟩)
      have rearmed : Change.applied? t (.retarget handle target) = some (t.restarted target) :=
        congrArg some (if_pos same.symm)
      simp only [same, ↓reduceIte, List.filterMap_cons, rearmed, Change.filterMap_applied?_other others]
    · have stays : Change.applied? t (.retarget handle target) = some t :=
        congrArg some (if_neg (Ne.symm same))
      simp only [same, ↓reduceIte, List.filterMap_cons, stays, ih distinct]

theorem dropFirst_eq_filterMap (handle : Handle) {tasks : List (Task κ)}
    (distinct : (tasks.map (·.handle)).Nodup) :
    dropFirst handle tasks = tasks.filterMap (Change.applied? · (.delete handle)) := by
  induction tasks with
  | nil => rfl
  | cons t rest ih =>
    obtain ⟨alone, distinct⟩ := List.nodup_cons.mp distinct
    by_cases same : t.handle = handle
    · have others : ∀ u ∈ rest, (Change.delete handle : Change κ).handle ≠ u.handle :=
        fun u member equal => alone (List.mem_map.mpr ⟨u, member, equal.symm.trans same.symm⟩)
      have gone : Change.applied? t (.delete handle) = none := if_pos same.symm
      simp only [List.filterMap_cons, gone, Change.filterMap_applied?_other others]
      exact List.eraseP_cons_of_pos (decide_eq_true same)
    · have stays : Change.applied? t (.delete handle) = some t := if_neg (Ne.symm same)
      simp only [List.filterMap_cons, stays, ← ih distinct]
      exact List.eraseP_cons_of_neg (by simpa using same)

variable [ToString κ]

/-- Carrying out a change does to each task what the change says, and appends the task it adds. -/
theorem tasks_carryOut {s : Scheduler κ τ} {c : Change κ} (distinct : (s.tasks.map (·.handle)).Nodup)
    (room : ∀ task, c = .add task → s.tasks.length < s.capacity) :
    (s.carryOut c).state.tasks = s.tasks.filterMap (Change.applied? · c) ++ c.added?.toList := by
  cases c with
  | add task =>
    have kept : s.tasks.filterMap (Change.applied? · (.add task)) = s.tasks := List.filterMap_some
    simp only [carryOut, room task rfl, ↓reduceIte, recorded, kept]
    rfl
  | retarget handle target =>
    rw [← restartFirst_eq_filterMap handle target distinct]
    exact (tasks_update s handle target).trans (List.append_nil _).symm
  | delete handle =>
    rw [← dropFirst_eq_filterMap handle distinct]
    exact (tasks_delete s handle).trans (List.append_nil _).symm

/-- Carrying out changes one after the other gives the tasks that the changes leave when they are
laid over all tasks at once. -/
theorem carryOutAll_eq_overlaid {changes : List (Change κ)} {s : Scheduler κ τ}
    (distinct : ((s.tasks ++ changes.filterMap Change.added?).map (·.handle)).Nodup)
    (fresh : changes.Pairwise fun c later => ∀ task, later = .add task → c.handle ≠ task.handle)
    (room : s.tasks.length + (changes.filterMap Change.added?).length ≤ s.capacity) :
    (carryOutAll changes s).state.tasks = overlaid changes s.tasks := by
  -- The last change finds what the changes before it left, which is known by induction.
  induction changes using List.reverseRecOn with
  | nil =>
    show s.tasks = (s.tasks ++ []).filterMap some
    rw [List.append_nil, List.filterMap_some]
  | append_singleton earlier c ih =>
    have added : (earlier ++ [c]).filterMap Change.added? =
        earlier.filterMap Change.added? ++ c.added?.toList := by
      rw [List.filterMap_append]
      cases c <;> rfl
    rw [added, ← List.append_assoc, List.map_append] at distinct
    rw [added, List.length_append] at room
    obtain ⟨fresh, -, about⟩ := List.pairwise_append.mp fresh
    have before := ih (List.Nodup.of_append_left distinct) fresh (by omega)
    have capacity := (carryOutAll_frame earlier s).1
    rw [carryOutAll_append, Change.overlaid_append_one earlier s.tasks c
      (fun task is c' member => about c' member c (List.mem_singleton_self c) task is), ← before]
    refine tasks_carryOut ?_ ?_
    · rw [before]
      exact (Change.handles_overlaid_sublist earlier s.tasks).nodup (List.Nodup.of_append_left distinct)
    · rintro task rfl
      rw [before, capacity]
      have bound := (Change.handles_overlaid_sublist earlier s.tasks).length_le
      simp only [List.length_map, List.length_append] at bound
      simp only [Change.added?, Option.toList_some, List.length_singleton] at room
      omega

end Scheduler

namespace Pass

/-- The handles of a tick: those of its tasks and those given to the tasks that it adds. -/
def handles (p : Pass κ) : List Handle :=
  (p.entries.map (·.task) ++ p.changes.filterMap Change.added?).map (·.handle)

/-- What holds of a pass in a run that has given out `n` handles so far. -/
structure Sound (n : Nat) (p : Pass κ) : Prop where
  next : p.nextHandle.id.toNat = n + 1
  distinct : p.handles.Nodup
  given : ∀ h ∈ p.handles, h.id.toNat ≤ n
  named : ∀ c ∈ p.changes, c.handle.id.toNat ≤ n
  fresh : p.changes.Pairwise fun c later => ∀ task, later = .add task → c.handle ≠ task.handle
  room : p.occupied ≤ p.capacity

theorem identity_of_survivor? {e : Entry κ} {after : Task κ} (left : e.survivor? = some after) :
    after.identity = e.task.identity := by
  obtain ⟨task, settlement⟩ := e
  cases settlement with
  | none => exact congrArg Task.identity (Option.some.inj left).symm
  | some settlement =>
    cases settlement with
    | again target =>
      obtain rfl := Option.some.inj left
      rfl
    | removed => contradiction
    | faulted => contradiction

theorem handle_of_survivor? {e : Entry κ} {after : Task κ} (left : e.survivor? = some after) :
    after.handle = e.task.handle := Task.handle_of_identity (identity_of_survivor? left)

/-- Outcomes bring in no tasks. -/
theorem identity_survivor?_sublist (entries : List (Entry κ)) :
    ((entries.filterMap Entry.survivor?).map (·.identity)).Sublist
      ((entries.map (·.task)).map (·.identity)) := by
  induction entries with
  | nil => exact List.Sublist.refl _
  | cons e rest ih =>
    cases left : e.survivor? with
    | none =>
      rw [List.filterMap_cons_none left]
      exact ih.cons _
    | some after =>
      rw [List.filterMap_cons_some left, List.map_cons, List.map_cons, List.map_cons, identity_of_survivor? left]
      exact ih.cons_cons _

theorem handles_survivor?_sublist (entries : List (Entry κ)) :
    ((entries.filterMap Entry.survivor?).map (·.handle)).Sublist
      ((entries.map (·.task)).map (·.handle)) := by
  have handles (tasks : List (Task κ)) : (tasks.map (·.identity)).map (·.2.1) = tasks.map (·.handle) := by
    simp [Task.identity, Function.comp_def]
  rw [← handles, ← handles]
  exact (identity_survivor?_sublist entries).map _

/-- Outcomes and additions bring in no handles but those of the tick. -/
theorem handles_base_sublist (p : Pass κ) :
    ((p.entries.filterMap Entry.survivor? ++ p.changes.filterMap Change.added?).map (·.handle)).Sublist
      p.handles := by
  rw [handles, List.map_append, List.map_append]
  exact (handles_survivor?_sublist p.entries).append (List.Sublist.refl _)

theorem handles_survivors_sublist (p : Pass κ) : (p.survivors.map (·.handle)).Sublist p.handles :=
  (Change.handles_overlaid_sublist p.changes _).trans p.handles_base_sublist

/-- There are never more survivors than places taken. -/
theorem length_survivors_le (p : Pass κ) : p.survivors.length ≤ p.occupied := by
  have bound := (Change.handles_overlaid_sublist p.changes (p.entries.filterMap Entry.survivor?)).length_le
  simpa only [List.length_map, List.length_append] using! bound

/-- Settling a task frees its place or leaves it taken. -/
theorem occupied_passed_le {p : Pass κ} {t : Task κ} {rest : List (Task κ)} (head : p.waiting = t :: rest)
    (settlement : Option Settlement) : (p.passed ⟨t, settlement⟩ rest).occupied ≤ p.occupied := by
  have one : ([Entry.mk t settlement].filterMap Entry.survivor?).length ≤ 1 := List.length_filterMap_le _ _
  have before : p.entries = p.visited ++ ⟨t, none⟩ :: rest.map fun t => ⟨t, none⟩ := by
    rw [entries, head, List.map_cons]
  have after : (p.passed ⟨t, settlement⟩ rest).entries =
      p.visited ++ [⟨t, settlement⟩] ++ rest.map fun t => ⟨t, none⟩ := rfl
  simp only [occupied, before, after, List.filterMap_append, List.length_append]
  rw [List.filterMap_cons_some (show Entry.survivor? ⟨t, none⟩ = some t from rfl), List.length_cons]
  simp only [passed]
  omega

theorem handles_passed {p : Pass κ} {t : Task κ} {rest : List (Task κ)} (head : p.waiting = t :: rest)
    (settlement : Option Settlement) : (p.passed ⟨t, settlement⟩ rest).handles = p.handles := by
  simp only [handles, tasks_passed head settlement]
  rfl

theorem Sound.passed {n : Nat} {p : Pass κ} (sound : p.Sound n) {t : Task κ} {rest : List (Task κ)}
    (head : p.waiting = t :: rest) (settlement : Option Settlement) :
    (p.passed ⟨t, settlement⟩ rest).Sound n := by
  have same := handles_passed head settlement
  exact {
    next := sound.next
    distinct := same ▸ sound.distinct
    given := fun h member => sound.given h (same ▸ member)
    named := sound.named
    fresh := sound.fresh
    room := Nat.le_trans (occupied_passed_le head settlement) sound.room }

/-- A task that is added gets a handle that nothing in the tick has named. -/
theorem Sound.added {n : Nat} {p : Pass κ} (sound : p.Sound n) (few : n + 1 < Handle.numbers)
    (vacant : p.occupied < p.capacity) (key : κ) (target : Duration) (visibility : Visibility) :
    ({ p with nextHandle := p.nextHandle.next }.enqueue
      (.add (.fresh p.nextHandle key target visibility))).Sound (n + 1) := by
  have next := sound.next
  have handles : ({ p with nextHandle := p.nextHandle.next }.enqueue
      (.add (.fresh p.nextHandle key target visibility))).handles = p.handles ++ [p.nextHandle] := by
    simp [Pass.handles, enqueue, entries, Change.added?, Task.fresh]
  refine ⟨?_, ?_, ?_, ?_, ?_, ?_⟩
  · exact (Handle.toNat_next (next ▸ few)).trans (congrArg (· + 1) next)
  · rw [handles, ← List.concat_eq_append]
    refine List.Nodup.concat (fun member => ?_) sound.distinct
    have old := sound.given p.nextHandle member
    omega
  · intro h member
    rw [handles] at member
    rcases List.mem_append.mp member with old | new
    · exact Nat.le_succ_of_le (sound.given h old)
    · rw [List.mem_singleton.mp new]
      omega
  · intro c member
    rcases List.mem_append.mp member with old | new
    · exact Nat.le_succ_of_le (sound.named c old)
    · rw [List.mem_singleton.mp new]
      exact Nat.le_of_eq next
  · refine List.pairwise_append.mpr ⟨sound.fresh, List.pairwise_singleton _ _, ?_⟩
    rintro c member later isLast task rfl same
    have old := sound.named c member
    have added := Change.add.inj (List.mem_singleton.mp isLast)
    rw [same, added] at old
    simp only [Task.fresh] at old
    omega
  · simp only [occupied, enqueue, entries, List.filterMap_append, List.length_append] at vacant ⊢
    exact vacant

/-- A change to a task that is left keeps the pass sound. -/
theorem Sound.enqueueFor {n : Nat} {p : Pass κ} (sound : p.Sound n) {handle : Handle} {c : Change κ}
    (about : c.handle = handle) (plain : c.added? = none) : (p.enqueueFor handle c).state.Sound n := by
  simp only [Pass.enqueueFor]
  split
  · next there =>
    split
    · have known : handle ∈ p.handles := p.handles_survivors_sublist.subset (contains_iff.mp there)
      have notAdded : ∀ task, c ≠ .add task := by
        rintro task rfl
        exact Option.some_ne_none task plain
      have added : (p.changes ++ [c]).filterMap Change.added? = p.changes.filterMap Change.added? := by
        rw [List.filterMap_append, List.filterMap_cons_none plain, List.filterMap_nil, List.append_nil]
      have handles : (p.enqueue c).handles = p.handles := by
        simp only [Pass.handles, enqueue, added]
        rfl
      refine ⟨sound.next, handles ▸ sound.distinct, ?_, ?_, ?_, ?_⟩
      · exact fun h member => sound.given h (handles ▸ member)
      · intro c' member
        rcases List.mem_append.mp member with old | new
        · exact sound.named c' old
        · rw [List.mem_singleton.mp new, about]
          exact sound.given handle known
      · refine List.pairwise_append.mpr ⟨sound.fresh, List.pairwise_singleton _ _, ?_⟩
        intro c' member later isLast task same
        exact absurd ((List.mem_singleton.mp isLast).symm.trans same) (notAdded task)
      · have taken : (p.enqueue c).occupied = p.occupied := by
          simp only [occupied, enqueue, added]
          rfl
        exact taken ▸ sound.room
    · exact sound
  · exact sound

variable [ToString κ]

/-- Every request keeps a pass sound while there are handles left. -/
theorem Sound.registry {n : Nat} {p : Pass κ} (sound : p.Sound n) (q : Request κ)
    (few : n + Exchange.minted ⟨q, (registry q p).answer⟩ < Handle.numbers) :
    (registry q p).state.Sound (n + Exchange.minted ⟨q, (registry q p).answer⟩) := by
  cases q with
  | add key target visibility =>
    simp only [Pass.registry, add] at few ⊢
    split
    · next vacant =>
      split
      · next fits =>
        rw [if_pos vacant, if_pos fits] at few
        exact sound.added few vacant key target visibility
      · next full =>
        rw [if_pos vacant, if_neg full] at few
        have next : p.nextHandle.next.id.toNat = n + 1 + 1 :=
          (Handle.toNat_next (sound.next ▸ few)).trans (congrArg (· + 1) sound.next)
        exact ⟨next, sound.distinct, fun h member => Nat.le_succ_of_le (sound.given h member),
          fun c member => Nat.le_succ_of_le (sound.named c member), sound.fresh, sound.room⟩
    · exact sound
  | update handle target => exact sound.enqueueFor rfl rfl
  | delete handle => exact sound.enqueueFor rfl rfl
  | contains handle => exact sound
  | idleTime => exact sound

/-- A pass stays sound, whatever the tasks do, while there are handles left. -/
theorem Sound.underway {n : Nat} {first p : Pass κ} {history : List (Exchange κ)} (sound : first.Sound n)
    (run : first.Underway history p) (few : n + Exchange.mintedIn history < Handle.numbers) :
    p.Sound (n + Exchange.mintedIn history) := by
  induction run with
  | begun => exact sound
  | asked q earlier ih =>
    rw [Exchange.mintedIn_append, Exchange.mintedIn_singleton, ← Nat.add_assoc] at few ⊢
    exact (ih (by omega)).registry q few
  | skipped earlier head early ih => exact (ih few).passed head none
  | settled settlement earlier head due ih => exact (ih few).passed head (some settlement)

theorem capacity_underway {first p : Pass κ} {history : List (Exchange κ)} (run : first.Underway history p) :
    p.capacity = first.capacity := by
  induction run with
  | begun => rfl
  | asked q earlier ih => exact (registry_frame q _).2.2.trans ih
  | skipped earlier head early ih => exact ih
  | settled settlement earlier head due ih => exact ih

end Pass

namespace Scheduler

/-- What holds between ticks in a run that has given out `n` handles so far. -/
structure Sound (n : Nat) (s : Scheduler κ τ) : Prop where
  next : s.nextHandle.id.toNat = n + 1
  distinct : (s.tasks.map (·.handle)).Nodup
  given : ∀ h ∈ s.tasks.map (·.handle), h.id.toNat ≤ n
  room : s.tasks.length ≤ s.capacity

theorem sound_empty (capacity : Nat) (timer : τ) : (empty capacity timer : Scheduler κ τ).Sound 0 :=
  ⟨rfl, List.nodup_nil, fun _ member => absurd member List.not_mem_nil, Nat.zero_le _⟩

theorem Sound.start [TickTimer τ] {n : Nat} {s : Scheduler κ τ} (sound : s.Sound n) (period : Duration) :
    (s.start period).state.Sound n := by
  obtain ⟨tasks, capacity, nextHandle⟩ := s.start_frame period
  refine ⟨?_, ?_, ?_, ?_⟩
  · rw [nextHandle]
    exact sound.next
  · rw [tasks]
    exact sound.distinct
  · rw [tasks]
    exact sound.given
  · rw [tasks, capacity]
    exact sound.room

theorem occupied_firstPass (s : Scheduler κ τ) : s.firstPass.occupied = s.tasks.length := by
  simp [Pass.occupied, Pass.entries, firstPass, begin, aged, List.filterMap_map, Function.comp_def, Entry.survivor?]

theorem Sound.firstPass {n : Nat} {s : Scheduler κ τ} (sound : s.Sound n) : s.firstPass.Sound n := by
  have tasks : s.firstPass.entries.map (·.task) = s.aged := by
    simp [Pass.entries, Scheduler.firstPass, begin, Function.comp_def]
  have handles : s.firstPass.handles = s.tasks.map (·.handle) := by
    rw [Pass.handles, tasks]
    simp [Scheduler.firstPass, begin, aged, Task.aged]
  exact {
    next := sound.next
    distinct := handles ▸ sound.distinct
    given := fun h member => sound.given h (handles ▸ member)
    named := fun c member => absurd member List.not_mem_nil
    fresh := List.Pairwise.nil
    room := s.occupied_firstPass ▸ sound.room }

variable [ToString κ]

/-- The end of a tick leaves what its last pass shows. -/
theorem tasks_commit {n : Nat} {s : Scheduler κ τ} {p : Pass κ} (sound : p.Sound n)
    (same : p.capacity = s.capacity) : (s.commit p).state.tasks = p.survivors := by
  refine carryOutAll_eq_overlaid ?_ sound.fresh ?_
  · exact p.handles_base_sublist.nodup sound.distinct
  · exact same ▸ sound.room

theorem commit_frame (s : Scheduler κ τ) (p : Pass κ) :
    (s.commit p).state.capacity = s.capacity ∧ (s.commit p).state.nextHandle = p.nextHandle :=
  carryOutAll_frame p.changes _

theorem Sound.commit {n : Nat} {s : Scheduler κ τ} {p : Pass κ} (sound : p.Sound n)
    (same : p.capacity = s.capacity) : (s.commit p).state.Sound n := by
  have tasks := tasks_commit sound same
  obtain ⟨capacity, nextHandle⟩ := commit_frame s p
  refine ⟨?_, ?_, ?_, ?_⟩
  · rw [nextHandle]
    exact sound.next
  · rw [tasks]
    exact p.handles_survivors_sublist.nodup sound.distinct
  · intro h member
    rw [tasks] at member
    exact sound.given h (p.handles_survivors_sublist.subset member)
  · rw [tasks, capacity, ← same]
    exact Nat.le_trans p.length_survivors_le sound.room

/-- Every request between ticks keeps a scheduler sound while there are handles left. -/
theorem Sound.registry {n : Nat} {s : Scheduler κ τ} (sound : s.Sound n) (q : Request κ)
    (few : n + Exchange.minted ⟨q, (registry q s).answer⟩ < Handle.numbers) :
    (registry q s).state.Sound (n + Exchange.minted ⟨q, (registry q s).answer⟩) := by
  cases q with
  | add key target visibility =>
    simp only [Scheduler.registry, add] at few ⊢
    split
    · next vacant =>
      rw [if_pos vacant] at few
      have next := sound.next
      refine ⟨?_, ?_, ?_, ?_⟩
      · exact (Handle.toNat_next (next ▸ few)).trans (congrArg (· + 1) next)
      · simp only [recorded, List.map_append, List.map_cons, List.map_nil, Task.fresh]
        rw [← List.concat_eq_append]
        refine List.Nodup.concat (fun member => ?_) sound.distinct
        have old := sound.given s.nextHandle member
        omega
      · intro h member
        simp only [recorded, List.map_append, List.map_cons, List.map_nil, Task.fresh] at member
        rcases List.mem_append.mp member with old | new
        · exact Nat.le_succ_of_le (sound.given h old)
        · rw [List.mem_singleton.mp new]
          exact Nat.le_of_eq next
      · simpa only [recorded, List.length_append, List.length_singleton] using! vacant
    · exact sound
  | update handle target =>
    simp only [Scheduler.registry, update]
    split
    · refine ⟨sound.next, ?_, ?_, ?_⟩
      · simp only [recorded, handles_restartFirst]
        exact sound.distinct
      · simp only [recorded, handles_restartFirst]
        exact sound.given
      · have length := congrArg List.length (handles_restartFirst handle target s.tasks)
        simp only [List.length_map] at length
        exact length ▸ sound.room
    · exact sound
  | delete handle =>
    simp only [Scheduler.registry, delete]
    split
    · have fewer := dropFirst_sublist handle s.tasks
      refine ⟨sound.next, ?_, ?_, ?_⟩
      · exact (fewer.map _).nodup sound.distinct
      · exact fun h member => sound.given h ((fewer.map _).subset member)
      · exact Nat.le_trans fewer.length_le sound.room
    · exact sound
  | contains handle => exact sound
  | idleTime => exact sound

/-- Where no task has gone yet, there are as many handles as tasks, and one more task takes the next. -/
theorem Sound.grown {s : Scheduler κ τ} (sound : s.Sound s.tasks.length) (vacant : s.tasks.length < s.capacity)
    (few : s.capacity < Handle.numbers) (key : κ) (target : Duration) (visibility : Visibility) :
    (s.add key target visibility).state.Sound (s.add key target visibility).state.tasks.length := by
  obtain ⟨answer, tasks, -⟩ := add_vacant vacant key target visibility
  have one : Exchange.minted ⟨.add key target visibility, (s.add key target visibility).answer⟩ = 1 := by
    rw [answer]
    rfl
  have grown := sound.registry (.add key target visibility)
  rw [show (Scheduler.registry (.add key target visibility) s) = s.add key target visibility from rfl, one] at grown
  rw [tasks, List.length_append, List.length_singleton]
  exact grown (by omega)

theorem Sound.swept {n : Nat} {s : Scheduler κ τ} (sound : s.Sound n) (code : TaskCode κ ρ) (shared : ρ)
    (few : n + Exchange.mintedIn (s.tickExchanges code shared) < Handle.numbers) :
    (s.swept code shared).state.pass.Sound (n + Exchange.mintedIn (s.tickExchanges code shared)) ∧
      (s.swept code shared).state.pass.capacity = s.capacity := by
  obtain ⟨run, -⟩ := s.underway_swept code shared
  exact ⟨sound.firstPass.underway run few, Pass.capacity_underway run⟩

/-- A tick leaves what its last pass shows. -/
theorem Sound.tasks_tick {n : Nat} {s : Scheduler κ τ} (sound : s.Sound n) (active : s.active = true)
    (code : TaskCode κ ρ) (shared : ρ) (few : n + Exchange.mintedIn (s.tickExchanges code shared) < Handle.numbers) :
    (s.tick code shared).state.1.tasks = (s.swept code shared).state.pass.survivors := by
  obtain ⟨last, capacity⟩ := sound.swept code shared few
  rw [(s.tick_active active code shared).1]
  exact tasks_commit last capacity

variable [TickTimer τ]

theorem Sound.act {n : Nat} {s : Scheduler κ τ} (sound : s.Sound n) (a : Action κ)
    (few : n + Exchange.mintedIn (s.exchanges a) < Handle.numbers) :
    (s.act a).Sound (n + Exchange.mintedIn (s.exchanges a)) := by
  cases a with
  | start period => exact sound.start period
  | stop => exact ⟨sound.next, sound.distinct, sound.given, sound.room⟩
  | ask q =>
    simp only [exchanges, Exchange.mintedIn_singleton] at few ⊢
    exact sound.registry q few
  | tick code shared =>
    simp only [Scheduler.act, exchanges] at few ⊢
    by_cases active : s.active
    · rw [if_pos active] at few ⊢
      obtain ⟨last, capacity⟩ := sound.swept code shared few
      rw [(s.tick_active active code shared).1]
      exact Sound.commit last capacity
    · rw [if_neg active, (s.tick_stopped (by simpa using active) code shared).1]
      exact sound

/-- Every run keeps a scheduler sound while there are handles left. -/
theorem Sound.run {n : Nat} {s : Scheduler κ τ} (sound : s.Sound n) (actions : List (Action κ))
    (few : n + Exchange.mintedIn (s.history actions) < Handle.numbers) :
    (s.run actions).Sound (n + Exchange.mintedIn (s.history actions)) := by
  have all := run_induction
    (motive := fun history s => n + Exchange.mintedIn history < Handle.numbers →
      s.Sound (n + Exchange.mintedIn history))
    (fun history s a before few => by
      rw [Exchange.mintedIn_append, ← Nat.add_assoc] at few ⊢
      exact (before (by omega)).act a few)
    actions [] s fun _ => sound
  exact all few

theorem sound_run (capacity : Nat) (timer : τ) (actions : List (Action κ))
    (few : Exchange.mintedIn ((empty capacity timer : Scheduler κ τ).history actions) < Handle.numbers) :
    ((empty capacity timer : Scheduler κ τ).run actions).Sound
      (Exchange.mintedIn ((empty capacity timer : Scheduler κ τ).history actions)) := by
  have reached := (sound_empty capacity timer).run actions ((Nat.zero_add _).symm ▸ few)
  rw [Nat.zero_add] at reached
  exact reached

/-- At every moment of a tick the tasks that a running task sees are those that the end of the tick
would leave if it came now; and when the last task has been settled, the tick leaves what its last
pass shows. Handles may not have been used up. -/
theorem commit_eq_survivors (capacity : Nat) (timer : τ) (actions : List (Action κ)) :
    let s : Scheduler κ τ := (empty capacity timer).run actions
    let minted := Exchange.mintedIn ((empty capacity timer : Scheduler κ τ).history actions)
    (∀ (history : List (Exchange κ)) (p : Pass κ), s.firstPass.Underway history p →
      minted + Exchange.mintedIn history < Handle.numbers → (s.commit p).state.tasks = p.survivors) ∧
    ∀ {ρ : Type} (code : TaskCode κ ρ) (shared : ρ), s.active = true →
      minted + Exchange.mintedIn (s.tickExchanges code shared) < Handle.numbers →
      s.firstPass.Underway (s.tickExchanges code shared) (s.swept code shared).state.pass ∧
      (s.swept code shared).state.pass.waiting = [] ∧
      (s.tick code shared).state.1.tasks = (s.swept code shared).state.pass.survivors := by
  intro s minted
  have sound (few : minted < Handle.numbers) : s.Sound minted := sound_run capacity timer actions few
  refine ⟨?_, ?_⟩
  · intro history p run few
    have last := (sound (by omega)).firstPass.underway run few
    exact tasks_commit last (Pass.capacity_underway run)
  · intro ρ code shared active few
    obtain ⟨run, done⟩ := s.underway_swept code shared
    exact ⟨run, done, (sound (by omega)).tasks_tick active code shared few⟩

/-- A task that registers another, puts off the second one, asks to be deleted and comes back all the
same; any other task fails. -/
def meddling : TaskCode Nat Unit
  | 0, _ => do
    let _ ← Program.add 3 (.ofMillis 5) .visible
    let _ ← Program.update ⟨2⟩ (.ofMillis 7)
    let _ ← Program.delete ⟨1⟩
    return (.ok (.again (.ofSeconds 1)), ())
  | _, _ => return (.error ⟨"no such task"⟩, ())

/-- Three tasks, of which the first and the last are due in the next tick. -/
def threeTasks : List (Action Nat) :=
  [.start (.ofMillis 10), .ask (.add 0 .zero .visible), .ask (.add 1 (.ofMillis 50) .visible),
    .ask (.add 2 .zero .hidden)]

theorem commit_eq_survivors_meddling :
    let s : Scheduler Nat ManualTimer := (empty 4 .stopped).run threeTasks
    let minted := Exchange.mintedIn ((empty 4 .stopped : Scheduler Nat ManualTimer).history threeTasks)
    let asked := (meddling 0 ()).run Pass.registry s.firstPass
    s.firstPass.Underway ((meddling 0 ()).exchanges Pass.registry s.firstPass) asked.state ∧
    minted + Exchange.mintedIn ((meddling 0 ()).exchanges Pass.registry s.firstPass) < Handle.numbers ∧
    s.active = true ∧ minted + Exchange.mintedIn (s.tickExchanges meddling ()) < Handle.numbers ∧
    (s.commit asked.state).state.tasks = asked.state.survivors ∧
    (s.tick meddling ()).state.1.tasks = (s.swept meddling ()).state.pass.survivors := by
  obtain ⟨midTick, atEnd⟩ := commit_eq_survivors (κ := Nat) 4 ManualTimer.stopped threeTasks
  have opening : ((empty 4 .stopped : Scheduler Nat ManualTimer).run threeTasks).firstPass.Underway [] _ := .begun
  have run := Pass.underway_run (meddling 0 ()) opening
  refine ⟨run, by decide, rfl, by decide, midTick _ _ run (by decide), ?_⟩
  exact (atEnd meddling () rfl (by decide)).2.2

end Scheduler
end ConferenceBadge
