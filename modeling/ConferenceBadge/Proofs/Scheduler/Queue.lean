import ConferenceBadge.Proofs.Scheduler.Overlay
import ConferenceBadge.Proofs.Scheduler.Places

/-!
The queue of a tick. It holds what the answers of the tick promised, in their order
(`changes_underway`). Even where handle numbers have started over, no task is removed twice, a change
names a task of the tick, and the places taken never exceed the room (`Orderly`); so the tasks that a
tick leaves can be counted (`Orderly.length_survivors`).
-/
namespace ConferenceBadge

variable {κ τ ρ : Type}

namespace Exchange

/-- The change that an answer promises: it takes effect at once between ticks, and at the end of the
tick in the middle of one. -/
def change? : Exchange κ → Option (Change κ)
  | ⟨.add key target visibility, .ok handle⟩ => some (.add (.fresh handle key target visibility))
  | ⟨.update handle target, true⟩ => some (.retarget handle target)
  | ⟨.delete handle, true⟩ => some (.delete handle)
  | _ => none

end Exchange

namespace Change

/-- The handle of the task that a change removes. -/
def deleted? : Change κ → Option Handle
  | delete handle => some handle
  | _ => none

theorem handle_of_deleted? {c : Change κ} {handle : Handle} (gone : c.deleted? = some handle) :
    c.handle = handle := by
  cases c with
  | add task => contradiction
  | retarget handle target => contradiction
  | delete handle => exact Option.some.inj gone

theorem foldlM_applied?_deleted {changes : List (Change κ)} {t : Task κ}
    (gone : t.handle ∈ changes.filterMap deleted?) : changes.foldlM applied? t = none := by
  induction changes generalizing t with
  | nil => simp at gone
  | cons c rest ih =>
    rw [List.foldlM_cons]
    cases left : c.applied? t with
    | none => rfl
    | some after =>
      refine ih ?_
      rw [handle_of_applied? left]
      cases c with
      | add task => exact gone
      | retarget handle target => exact gone
      | delete handle =>
        rcases List.mem_cons.mp gone with first | later
        · simp [applied?, first] at left
        · exact later

/-- Changes leave a task exactly where none of them removes it. -/
theorem foldlM_applied?_isSome {changes : List (Change κ)} {t : Task κ} :
    (changes.foldlM applied? t).isSome ↔ t.handle ∉ changes.filterMap deleted? := by
  constructor
  · intro left gone
    rw [foldlM_applied?_deleted gone] at left
    contradiction
  · intro stays
    induction changes generalizing t with
    | nil => rfl
    | cons c rest ih =>
      rw [List.foldlM_cons]
      cases c with
      | add task => exact ih stays
      | retarget handle target =>
        refine ih ?_
        split
        · exact stays
        · exact stays
      | delete handle =>
        obtain ⟨other, later⟩ := not_or.mp (mt List.mem_cons.mpr stays)
        have kept : applied? t (.delete handle) = some t := if_neg (Ne.symm other)
        rw [kept]
        exact ih later

end Change

/-- Whether the task of an entry ended with a removal or a fault. -/
def Entry.ended (e : Entry κ) : Bool := e.survivor?.isNone

namespace Pass

/-- The handles of the tasks that ended with a removal or a fault. -/
def ended (p : Pass κ) : List Handle := (p.entries.filter Entry.ended).map (·.task.handle)

/-- The tasks that outcomes leave and those that are added, before any other change. -/
def base (p : Pass κ) : List (Task κ) :=
  p.entries.filterMap Entry.survivor? ++ p.changes.filterMap Change.added?

private theorem perm_settled (entries : List (Entry κ)) :
    ((entries.map (·.task)).map (·.handle)).Perm
      ((entries.filter Entry.ended).map (·.task.handle) ++
        (entries.filterMap Entry.survivor?).map (·.handle)) := by
  induction entries with
  | nil => exact List.Perm.refl _
  | cons e rest ih =>
    cases left : e.survivor? with
    | none =>
      simp only [List.map_cons, List.filter_cons, Entry.ended, left, Option.isNone_none, ↓reduceIte,
        List.filterMap_cons_none left]
      exact ih.cons _
    | some after =>
      simp only [List.map_cons, List.filter_cons, Entry.ended, left, Option.isNone_some, Bool.false_eq_true,
        ↓reduceIte, List.filterMap_cons_some left, handle_of_survivor? left]
      exact (ih.cons _).trans List.perm_middle.symm

/-- Every handle of a tick belongs to a task that has ended or to one that has not. -/
theorem handles_perm (p : Pass κ) : p.handles.Perm (p.ended ++ p.base.map (·.handle)) := by
  rw [handles, base, List.map_append, List.map_append, ← List.append_assoc]
  exact (perm_settled p.entries).append_right _

/-- What a change found when it was accepted: a free place for a task to be added, else a task that is
left. -/
def Accepts (p : Pass κ) : Change κ → Prop
  | .add _ => p.occupied < p.capacity
  | .retarget handle _ | .delete handle => handle ∈ p.survivors.map (·.handle)

/-- What holds of the queue in every tick. -/
structure Orderly (p : Pass κ) : Prop where
  room : p.occupied ≤ p.capacity
  named : ∀ c ∈ p.changes, c.handle ∈ p.handles
  once : (p.changes.filterMap Change.deleted?).Nodup
  fresh : p.handles.Nodup → p.changes.Pairwise fun c later => ∀ task, later = .add task → c.handle ≠ task.handle

theorem Orderly.enqueue {p : Pass κ} (orderly : p.Orderly) {c : Change κ} (accepted : p.Accepts c) :
    (p.enqueue c).Orderly := by
  have handles : (p.enqueue c).handles = p.handles ++ c.added?.toList.map (·.handle) := by
    cases c <;> simp [Pass.handles, Pass.enqueue, entries, Change.added?]
  have added : (p.enqueue c).changes.filterMap Change.added? =
      p.changes.filterMap Change.added? ++ c.added?.toList := by
    cases c <;> simp [Pass.enqueue, Change.added?]
  have known {h : Handle} (member : h ∈ p.survivors.map (·.handle)) : h ∈ p.handles :=
    p.handles_survivors_sublist.subset member
  refine ⟨?_, ?_, ?_, ?_⟩
  · have taken : (p.enqueue c).occupied = p.occupied + c.added?.toList.length := by
      simp only [occupied, added, List.length_append, Nat.add_assoc]
      rfl
    have bound := orderly.room
    rw [taken]
    show p.occupied + c.added?.toList.length ≤ p.capacity
    cases c with
    | add task => exact accepted
    | retarget handle target => exact bound
    | delete handle => exact bound
  · intro c' member
    rw [handles]
    rcases List.mem_append.mp member with old | new
    · exact List.mem_append_left _ (orderly.named c' old)
    · rw [List.mem_singleton.mp new]
      cases c with
      | add task => exact List.mem_append_right _ List.mem_cons_self
      | retarget handle target => exact List.mem_append_left _ (known accepted)
      | delete handle => exact List.mem_append_left _ (known accepted)
  · show ((p.changes ++ [c]).filterMap Change.deleted?).Nodup
    rw [List.filterMap_append]
    cases c with
    | add task => exact (List.append_nil _).symm ▸ orderly.once
    | retarget handle target => exact (List.append_nil _).symm ▸ orderly.once
    | delete handle =>
      refine List.nodup_append.mpr ⟨orderly.once, List.nodup_singleton _, ?_⟩
      rintro h earlier last isLast rfl
      obtain rfl := List.mem_singleton.mp isLast
      -- A task that was to be removed is not left, so no second removal of it is accepted.
      obtain ⟨t, left, rfl⟩ := List.mem_map.mp accepted
      obtain ⟨before, -, kept⟩ := List.mem_filterMap.mp left
      rw [Change.handle_of_foldlM kept] at earlier
      rw [Change.foldlM_applied?_deleted earlier] at kept
      contradiction
  · intro distinct
    rw [handles] at distinct
    refine List.pairwise_append.mpr
      ⟨orderly.fresh distinct.of_append_left, List.pairwise_singleton _ _, ?_⟩
    rintro c' member later isLast task rfl same
    rw [← List.mem_singleton.mp isLast] at distinct
    exact (List.nodup_append.mp distinct).2.2 _ (orderly.named c' member) _ List.mem_cons_self same

theorem Orderly.minted {p : Pass κ} (orderly : p.Orderly) (handle : Handle) :
    { p with nextHandle := handle }.Orderly :=
  ⟨orderly.room, orderly.named, orderly.once, orderly.fresh⟩

theorem Orderly.passed {p : Pass κ} (orderly : p.Orderly) {t : Task κ} {rest : List (Task κ)}
    (head : p.waiting = t :: rest) (settlement : Option Settlement) :
    (p.passed ⟨t, settlement⟩ rest).Orderly := by
  have same := handles_passed head settlement
  exact ⟨Nat.le_trans (occupied_passed_le head settlement) orderly.room,
    fun c member => same ▸ orderly.named c member, orderly.once, fun distinct => orderly.fresh (same ▸ distinct)⟩

/-- Those tasks of a tick are left that have not ended and whose removal was not accepted. -/
theorem Orderly.length_survivors {p : Pass κ} (orderly : p.Orderly) (distinct : p.handles.Nodup) :
    p.survivors.length + p.ended.length + (p.changes.filterMap Change.deleted?).countP (· ∉ p.ended) =
      p.entries.length + (p.changes.filterMap Change.added?).length := by
  have sum : p.ended.length + p.base.length = p.entries.length + (p.changes.filterMap Change.added?).length := by
    simpa [handles] using p.handles_perm.length_eq.symm
  obtain ⟨-, alone, apart⟩ := List.nodup_append.mp (p.handles_perm.nodup distinct)
  have kept : p.survivors.length =
      p.base.countP fun t => !decide (t.handle ∈ p.changes.filterMap Change.deleted?) := by
    rw [survivors, List.length_filterMap_eq_countP]
    refine List.countP_congr fun t _ => ?_
    rw [Change.foldlM_applied?_isSome, Bool.not_eq_true', decide_eq_false_iff_not]
  have gone : (p.changes.filterMap Change.deleted?).countP (fun h => decide (h ∈ p.base.map (·.handle))) =
      p.base.countP fun t => decide (t.handle ∈ p.changes.filterMap Change.deleted?) := by
    have both : ((p.changes.filterMap Change.deleted?).filter fun h => decide (h ∈ p.base.map (·.handle))).Perm
        ((p.base.map (·.handle)).filter fun h => decide (h ∈ p.changes.filterMap Change.deleted?)) := by
      refine (List.perm_ext_iff_of_nodup (orderly.once.filter _) (alone.filter _)).mpr fun h => ?_
      simp only [List.mem_filter, decide_eq_true_iff]
      exact And.comm
    rw [List.countP_eq_length_filter, both.length_eq, ← List.countP_eq_length_filter, List.countP_map]
    rfl
  -- An accepted removal names a task of the tick, which has ended or has not.
  have named : (p.changes.filterMap Change.deleted?).countP (fun h => decide (h ∈ p.base.map (·.handle))) =
      (p.changes.filterMap Change.deleted?).countP (· ∉ p.ended) := by
    refine List.countP_congr fun h member => ?_
    rw [decide_eq_true_iff, decide_eq_true_iff]
    constructor
    · intro left past
      exact apart h past h left rfl
    · intro lasting
      obtain ⟨c, queued, about⟩ := List.mem_filterMap.mp member
      have known : h ∈ p.ended ++ p.base.map (·.handle) := by
        rw [← p.handles_perm.mem_iff, ← Change.handle_of_deleted? about]
        exact orderly.named c queued
      exact (List.mem_append.mp known).resolve_left lasting
  have whole := List.length_eq_countP_add_countP
    (fun t : Task κ => decide (t.handle ∈ p.changes.filterMap Change.deleted?)) (l := p.base)
  simp only [Bool.not_eq_true, Bool.decide_eq_false] at whole
  omega

variable [ToString κ]

/-- A tick in progress queues what its answer promises. -/
theorem changes_asked (q : Request κ) (p : Pass κ) :
    (registry q p).state.changes = p.changes ++ (Exchange.change? ⟨q, (registry q p).answer⟩).toList := by
  have about (handle : Handle) (c : Change κ) : (p.enqueueFor handle c).state.changes =
      p.changes ++ (if (p.enqueueFor handle c).answer then some c else none).toList := by
    simp only [enqueueFor]
    split
    · split
      · rfl
      · exact (List.append_nil _).symm
    · exact (List.append_nil _).symm
  cases q with
  | add key target visibility =>
    simp only [registry, add]
    split
    · split
      · rfl
      · exact (List.append_nil _).symm
    · exact (List.append_nil _).symm
  | update handle target =>
    rw [registry, about]
    cases (p.enqueueFor handle (.retarget handle target)).answer <;> rfl
  | delete handle =>
    rw [registry, about]
    cases (p.enqueueFor handle (.delete handle)).answer <;> rfl
  | contains handle => exact (List.append_nil _).symm
  | idleTime => exact (List.append_nil _).symm

theorem base_registry (q : Request κ) (p : Pass κ) :
    (registry q p).state.base =
      p.base ++ ((Exchange.change? ⟨q, (registry q p).answer⟩).toList).filterMap Change.added? := by
  obtain ⟨waiting, visited, -⟩ := registry_frame q p
  rw [base, changes_asked, List.filterMap_append, entries, waiting, visited, ← List.append_assoc]
  rfl

/-- The queue of a tick is what its answers promised, in the order of the answers. -/
theorem changes_underway {first p : Pass κ} {history : List (Exchange κ)} (run : first.Underway history p) :
    p.changes = first.changes ++ history.filterMap Exchange.change? := by
  induction run with
  | begun => exact (List.append_nil _).symm
  | asked q earlier ih =>
    rw [changes_asked, ih, List.filterMap_append, List.append_assoc]
    rfl
  | skipped earlier head early ih => exact ih
  | settled settlement earlier head due ih => exact ih

theorem Orderly.registry {p : Pass κ} (orderly : p.Orderly) (q : Request κ) : (registry q p).state.Orderly := by
  have about {handle : Handle} {c : Change κ} (accepted : p.contains handle → p.Accepts c) :
      (p.enqueueFor handle c).state.Orderly := by
    simp only [enqueueFor]
    split
    · next there =>
      split
      · exact orderly.enqueue (accepted there)
      · exact orderly
    · exact orderly
  cases q with
  | add key target visibility =>
    simp only [Pass.registry, add]
    split
    · next vacant =>
      split
      · exact (orderly.minted _).enqueue vacant
      · exact orderly.minted _
    · exact orderly
  | update handle target => exact about contains_iff.mp
  | delete handle => exact about contains_iff.mp
  | contains handle => exact orderly
  | idleTime => exact orderly

theorem Orderly.underway {first p : Pass κ} {history : List (Exchange κ)} (orderly : first.Orderly)
    (run : first.Underway history p) : p.Orderly := by
  induction run with
  | begun => exact orderly
  | asked q earlier ih => exact ih.registry q
  | skipped earlier head early ih => exact ih.passed head none
  | settled settlement earlier head due ih => exact ih.passed head (some settlement)

end Pass

namespace Scheduler

theorem orderly_firstPass {s : Scheduler κ τ} (room : s.tasks.length ≤ s.capacity) : s.firstPass.Orderly :=
  ⟨s.occupied_firstPass ▸ room, fun _ member => absurd member List.not_mem_nil, List.nodup_nil,
    fun _ => List.Pairwise.nil⟩

variable [ToString κ]

theorem length_carryOut_le (s : Scheduler κ τ) (c : Change κ) :
    (s.carryOut c).state.tasks.length ≤ s.tasks.length + c.added?.toList.length := by
  cases c with
  | add task =>
    simp only [carryOut]
    split
    · simp [recorded, Change.added?]
    · simp [Change.added?]
  | retarget handle target =>
    have same := congrArg List.length (handles_restartFirst handle target s.tasks)
    rw [List.length_map, List.length_map, ← tasks_update] at same
    exact Nat.le_of_eq same
  | delete handle =>
    have fewer := (dropFirst_sublist handle s.tasks).length_le
    rw [← tasks_delete] at fewer
    exact fewer

/-- Only additions make the registry grow. -/
theorem length_carryOutAll_le (changes : List (Change κ)) (s : Scheduler κ τ) :
    (carryOutAll changes s).state.tasks.length ≤ s.tasks.length + (changes.filterMap Change.added?).length := by
  induction changes generalizing s with
  | nil => exact Nat.le_refl _
  | cons c rest ih =>
    have one := s.length_carryOut_le c
    have later := ih (s.carryOut c).state
    have sum : ((c :: rest).filterMap Change.added?).length =
        c.added?.toList.length + (rest.filterMap Change.added?).length := by
      cases added : c.added? with
      | none => simp [List.filterMap_cons_none added]
      | some task => simp [List.filterMap_cons_some added, Nat.add_comm]
    show (carryOutAll rest (s.carryOut c).state).state.tasks.length ≤ _
    omega

theorem room_carryOut {s : Scheduler κ τ} (room : s.tasks.length ≤ s.capacity) (c : Change κ) :
    (s.carryOut c).state.tasks.length ≤ s.capacity := by
  cases c with
  | add task =>
    simp only [carryOut]
    split
    · next vacant =>
      simp only [recorded, List.length_append, List.length_singleton]
      exact vacant
    · exact room
  | retarget handle target => exact Nat.le_trans (s.length_carryOut_le _) room
  | delete handle => exact Nat.le_trans (s.length_carryOut_le _) room

theorem room_carryOutAll {changes : List (Change κ)} {s : Scheduler κ τ} (room : s.tasks.length ≤ s.capacity) :
    (carryOutAll changes s).state.tasks.length ≤ s.capacity := by
  induction changes generalizing s with
  | nil => exact room
  | cons c rest ih =>
    have capacity := (carryOut_frame s c).1
    exact capacity ▸ ih (capacity.symm ▸ room_carryOut room c)

/-- A tick goes over the tasks that there are when it begins. -/
theorem length_entries_lastPass (s : Scheduler κ τ) (code : TaskCode κ ρ) (shared : ρ) :
    (s.lastPass code shared).entries.length = s.tasks.length := by
  simpa [aged] using congrArg List.length (s.ran_lastPass code shared)

theorem room_settled {s : Scheduler κ τ} (room : s.tasks.length ≤ s.capacity) (code : TaskCode κ ρ) (shared : ρ) :
    (s.settled code shared).tasks.length ≤ s.capacity := by
  have fewer := List.length_filterMap_le Entry.survivor? (s.lastPass code shared).entries
  rw [length_entries_lastPass] at fewer
  exact Nat.le_trans fewer room

theorem room_registry {s : Scheduler κ τ} (room : s.tasks.length ≤ s.capacity) (q : Request κ) :
    (registry q s).state.tasks.length ≤ (registry q s).state.capacity := by
  cases q with
  | add key target visibility =>
    simp only [registry, add]
    split
    · next vacant =>
      simp only [recorded, List.length_append, List.length_singleton]
      exact vacant
    · exact room
  | update handle target =>
    exact (carryOut_frame s (.retarget handle target)).1.symm ▸ room_carryOut room (.retarget handle target)
  | delete handle =>
    exact (carryOut_frame s (.delete handle)).1.symm ▸ room_carryOut room (.delete handle)
  | contains handle => exact room
  | idleTime => exact room

theorem capacity_registry (q : Request κ) (s : Scheduler κ τ) : (registry q s).state.capacity = s.capacity := by
  cases q with
  | add key target visibility =>
    simp only [registry, add]
    split <;> rfl
  | update handle target => exact (carryOut_frame s (.retarget handle target)).1
  | delete handle => exact (carryOut_frame s (.delete handle)).1
  | contains handle => rfl
  | idleTime => rfl

/-- A scheduler never holds more tasks than it has room for, however many handles have been given
out. -/
theorem room_run [TickTimer τ] {s : Scheduler κ τ} (room : s.tasks.length ≤ s.capacity)
    (actions : List (Action κ)) :
    (s.run actions).tasks.length ≤ (s.run actions).capacity ∧ (s.run actions).capacity = s.capacity := by
  refine run_induction (motive := fun _ last => last.tasks.length ≤ last.capacity ∧ last.capacity = s.capacity)
    ?_ actions [] s ⟨room, rfl⟩
  rintro _ last a ⟨room, same⟩
  cases a with
  | start period =>
    simp only [act, start]
    split
    · exact ⟨room, same⟩
    · exact ⟨room, same⟩
  | stop => exact ⟨room, same⟩
  | ask q => exact ⟨room_registry room q, (capacity_registry q last).trans same⟩
  | tick code shared =>
    by_cases active : last.active
    · have capacity := (carryOutAll_frame (last.lastPass code shared).changes (last.settled code shared)).1
      rw [act, tick_settled active, capacity]
      exact ⟨room_carryOutAll (room_settled room code shared), same⟩
    · rw [act, (last.tick_stopped (by simpa using active) code shared).1]
      exact ⟨room, same⟩

/-- In a tick whose tasks all have handles of their own, the end leaves what the last pass shows, even
where handle numbers have started over. -/
theorem tasks_tick_orderly {s : Scheduler κ τ} (active : s.active = true) (room : s.tasks.length ≤ s.capacity)
    (code : TaskCode κ ρ) (shared : ρ) (distinct : (s.lastPass code shared).handles.Nodup) :
    (s.lastPass code shared).Orderly ∧
      (s.tick code shared).state.1.tasks = (s.lastPass code shared).survivors := by
  obtain ⟨run, -⟩ := s.underway_swept code shared
  have orderly : (s.lastPass code shared).Orderly := (orderly_firstPass room).underway run
  have capacity : (s.lastPass code shared).capacity = s.capacity := Pass.capacity_underway run
  refine ⟨orderly, ?_⟩
  rw [tick_settled active]
  refine carryOutAll_eq_overlaid ?_ (orderly.fresh distinct) ?_
  · exact (s.lastPass code shared).handles_base_sublist.nodup distinct
  · exact capacity ▸ orderly.room

end Scheduler
end ConferenceBadge
