import ConferenceBadge.Proofs.Scheduler.Chronicle

/-!
Handles of tasks that have left. A task leaves where its run ends with a removal or a fault, and where
its removal takes effect. A handle that was given out and names no task any more is spent (`Spent`):
every step of a tick and every action keeps it so, because a new task gets a handle past all those given
out. So once a task has left, nothing is ever found, changed or run under its handle again
(`dead_handles_stay_dead`).
-/
namespace ConferenceBadge

variable {κ τ σ ρ : Type}

/-- A registry shows no task with a handle: it answers all that is asked about the handle with no, and
is not changed by it. -/
structure Registry.Lacks (registry : Registry κ σ) (view : σ → List (Task κ)) (handle : Handle) (s : σ) : Prop where
  absent : handle ∉ (view s).map (·.handle)
  contains : registry (.contains handle) s = ⟨false, s, []⟩
  update : ∀ target, registry (.update handle target) s = ⟨false, s, []⟩
  delete : registry (.delete handle) s = ⟨false, s, []⟩

/-- An answer brings in no handle but the one that it gives out. -/
theorem Exchange.given_of_leaves {e : Exchange κ} {tasks : List (Task κ)} {handle : Handle}
    (left : handle ∈ (e.leaves tasks).map (·.handle)) :
    handle ∈ tasks.map (·.handle) ∨ e.given? = some handle := by
  cases promised : e.change? with
  | none =>
    rw [leaves, promised] at left
    exact .inl left
  | some c =>
    rw [leaves, promised, List.map_append, List.mem_append] at left
    rcases left with old | new
    · have kept := Change.handles_filterMap_sublist (fun t after => Change.handle_of_applied? (c := c)) tasks
      exact .inl (kept.subset old)
    · cases added : c.added? with
      | none =>
        rw [added] at new
        contradiction
      | some task =>
        rw [added] at new
        obtain rfl := List.mem_singleton.mp new
        obtain ⟨target, visibility, rfl⟩ := asked_of_added promised added
        exact .inr rfl

namespace Pass

theorem lacks [ToString κ] {p : Pass κ} {handle : Handle} (absent : handle ∉ p.survivors.map (·.handle)) :
    registry.Lacks survivors handle p := by
  have unknown : p.contains handle = false := by
    cases there : p.contains handle with
    | false => rfl
    | true => exact absurd (contains_iff.mp there) absent
  refine ⟨absent, ?_, fun target => ?_, ?_⟩
  · simp only [registry, unknown]
  · simp only [registry, enqueueFor, unknown, Bool.false_eq_true, ↓reduceIte]
  · simp only [registry, enqueueFor, unknown, Bool.false_eq_true, ↓reduceIte]

/-- In a run that has given out `n` handles so far, this is one of them, and no task that waits, that is
kept or that is added has it. -/
structure Spent (n : Nat) (handle : Handle) (p : Pass κ) : Prop where
  given : handle.id.toNat ≤ n
  gone : handle ∉ p.base.map (·.handle)

theorem Spent.not_mem_survivors {n : Nat} {handle : Handle} {p : Pass κ} (spent : p.Spent n handle) :
    handle ∉ p.survivors.map (·.handle) := fun left =>
  spent.gone ((Change.handles_overlaid_sublist p.changes _).subset left)

/-- A task that still waits is not of a spent handle. -/
theorem Spent.waiting {n : Nat} {handle : Handle} {p : Pass κ} (spent : p.Spent n handle) {t : Task κ}
    (ahead : t ∈ p.waiting) : t.handle ≠ handle := by
  rintro rfl
  have entry : ⟨t, none⟩ ∈ p.entries := List.mem_append_right _ (List.mem_map.mpr ⟨t, ahead, rfl⟩)
  have based : t ∈ p.base := List.mem_append_left _ (List.mem_filterMap.mpr ⟨_, entry, rfl⟩)
  exact spent.gone (List.mem_map.mpr ⟨t, based, rfl⟩)

/-- Passing a task brings in no handles. -/
theorem handles_base_passed {p : Pass κ} {t : Task κ} {rest : List (Task κ)} (head : p.waiting = t :: rest)
    (settlement : Option Settlement) :
    ((p.passed ⟨t, settlement⟩ rest).base.map (·.handle)).Sublist (p.base.map (·.handle)) := by
  have one : (([Entry.mk t settlement].filterMap Entry.survivor?).map (·.handle)).Sublist [t.handle] :=
    handles_survivor?_sublist [⟨t, settlement⟩]
  have before : p.entries = p.visited ++ [⟨t, none⟩] ++ rest.map fun t => ⟨t, none⟩ := by
    simp [entries, head]
  simp only [base, before, List.filterMap_append, List.map_append]
  simp only [passed, entries, List.filterMap_append, List.map_append]
  exact (((List.Sublist.refl _).append one).append (List.Sublist.refl _)).append (List.Sublist.refl _)

theorem Spent.passed {n : Nat} {handle : Handle} {p : Pass κ} (spent : p.Spent n handle) {t : Task κ}
    {rest : List (Task κ)} (head : p.waiting = t :: rest) (settlement : Option Settlement) :
    (p.passed ⟨t, settlement⟩ rest).Spent n handle :=
  ⟨spent.given, fun left => spent.gone ((handles_base_passed head settlement).subset left)⟩

/-- The handle of a task that has ended is spent. -/
theorem Sound.spent {n : Nat} {p : Pass κ} (sound : p.Sound n) {handle : Handle} (ended : handle ∈ p.ended) :
    p.Spent n handle := by
  have known : handle ∈ p.handles := p.handles_perm.mem_iff.mpr (List.mem_append_left _ ended)
  refine ⟨sound.given handle known, fun left => ?_⟩
  exact (List.nodup_append.mp (p.handles_perm.nodup sound.distinct)).2.2 handle ended handle left rfl

variable [ToString κ]

theorem Spent.registry {n : Nat} {handle : Handle} {p : Pass κ} (spent : p.Spent n handle) (sound : p.Sound n)
    (q : Request κ) : (registry q p).state.Spent (n + Exchange.minted ⟨q, (registry q p).answer⟩) handle := by
  refine ⟨Nat.le_trans spent.given (Nat.le_add_right n _), fun left => ?_⟩
  rw [base_registry, List.map_append, List.mem_append] at left
  rcases left with old | new
  · exact spent.gone old
  · -- A task that is added gets the next handle, and that is past all those given out.
    obtain ⟨task, added, rfl⟩ := List.mem_map.mp new
    obtain ⟨c, queued, adds⟩ := List.mem_filterMap.mp added
    obtain ⟨target, visibility, asked⟩ := Exchange.asked_of_added (Option.mem_toList.mp queued) adds
    have given : Exchange.given? ⟨q, (Pass.registry q p).answer⟩ = some task.handle := by rw [asked]; rfl
    have next := sound.next
    rw [← given_registry given] at next
    have old := spent.given
    omega

/-- A spent handle stays spent, whatever the tasks of the tick do, while there are handles left. -/
theorem Spent.underway {n : Nat} {handle : Handle} {first p : Pass κ} {history : List (Exchange κ)}
    (spent : first.Spent n handle) (sound : first.Sound n) (run : first.Underway history p)
    (few : n + Exchange.mintedIn history < Handle.numbers) : p.Spent (n + Exchange.mintedIn history) handle := by
  induction run with
  | begun => exact spent
  | asked q earlier ih =>
    rw [Exchange.mintedIn_append, Exchange.mintedIn_singleton, ← Nat.add_assoc] at few ⊢
    exact (ih (by omega)).registry (sound.underway earlier (by omega)) q
  | skipped earlier head early ih => exact (ih few).passed head none
  | settled settlement earlier head due ih => exact (ih few).passed head (some settlement)

end Pass

/-- The tasks that have ended in a sweep are those whose end is an event. -/
theorem Sweep.ended_through [ToString κ] (code : TaskCode κ ρ) (uptime : Duration) (tasks : List (Task κ))
    (sweep : Sweep κ ρ) :
    ((through code uptime tasks sweep).state.pass.visited.filter Entry.ended).map (·.task.handle) =
      (sweep.pass.visited.filter Entry.ended).map (·.task.handle) ++
        (endings code uptime tasks sweep).filterMap Event.removed? := by
  have one (t : Task κ) (result : Except Fault Outcome) :
      ([Entry.mk t (some (.ofRun result))].filter Entry.ended).map (·.task.handle) =
        (event? t result).toList.filterMap Event.removed? := by
    cases result with
    | error fault => rfl
    | ok outcome =>
      cases wanted : outcome.delay? with
      | none =>
        simp only [Settlement.ofRun, wanted, event?, Option.isNone_none, ↓reduceIte]
        rfl
      | some target =>
        simp only [Settlement.ofRun, wanted, event?, Option.isNone_some, Bool.false_eq_true, ↓reduceIte]
        rfl
  induction tasks generalizing sweep with
  | nil => simp [through, endings]
  | cons t rest ih =>
    by_cases due : t.isDue
    · have visited := (Pass.run_frame (code t.key sweep.shared) { sweep.pass with waiting := t :: rest }).2.1
      simp only [through, endings, due, ↓reduceIte, Reply.andThen, List.filterMap_append]
      rw [ih, ← one, ← List.append_assoc, ← List.map_append, ← List.filter_append]
      simp only [dispatch, Pass.passed, visited]
      rfl
    · simp only [through, endings, due, Bool.false_eq_true, ↓reduceIte]
      rw [ih]
      simp [skip, Pass.passed, Entry.ended, Entry.survivor?]

namespace Scheduler

/-- In a run that has given out `n` handles so far, this is one of them, and no task has it. -/
structure Spent (n : Nat) (handle : Handle) (s : Scheduler κ τ) : Prop where
  given : handle.id.toNat ≤ n
  gone : handle ∉ s.tasks.map (·.handle)

theorem Spent.firstPass {n : Nat} {handle : Handle} {s : Scheduler κ τ} (spent : s.Spent n handle) :
    s.firstPass.Spent n handle := by
  have same : s.firstPass.base.map (·.handle) = s.tasks.map (·.handle) := by
    simp [Pass.base, Pass.entries, Scheduler.firstPass, begin, aged, Task.aged, Entry.survivor?, List.filterMap_map,
      Function.comp_def]
  exact ⟨spent.given, fun left => spent.gone (same ▸ left)⟩

variable [ToString κ]

theorem lacks {s : Scheduler κ τ} {handle : Handle} (absent : handle ∉ s.tasks.map (·.handle)) :
    registry.Lacks (·.tasks) handle s := by
  have unknown : s.contains handle = false := by
    cases there : s.contains handle with
    | false => rfl
    | true => exact absurd (contains_iff.mp there) absent
  have missing : s.find? handle = none := Option.isNone_iff_eq_none.mp (by simpa [contains] using unknown)
  refine ⟨absent, ?_, fun target => ?_, ?_⟩
  · simp only [registry, unknown]
  · simp only [registry, update, unknown, Bool.false_eq_true, ↓reduceIte]
  · simp only [registry, delete, missing]

/-- The tasks that end in a tick leave an event of the tick. -/
theorem ended_lastPass (s : Scheduler κ τ) (code : TaskCode κ ρ) (shared : ρ) :
    (s.lastPass code shared).ended =
      (Sweep.endings code (s.uptime + s.period) s.aged (s.firstSweep shared)).filterMap Event.removed? := by
  obtain ⟨-, done⟩ := s.underway_swept code shared
  have entries : (s.lastPass code shared).entries = (s.swept code shared).state.pass.visited := by
    rw [Pass.entries, lastPass, done, List.map_nil, List.append_nil]
  rw [Pass.ended, entries]
  exact Sweep.ended_through code (s.uptime + s.period) s.aged (s.firstSweep shared)

/-- The tasks that a tick runs are tasks that there are. -/
theorem handle_of_entry {s : Scheduler κ τ} {code : TaskCode κ ρ} {shared : ρ} {e : Entry κ}
    (entry : e ∈ (s.lastPass code shared).entries) : e.task.handle ∈ s.tasks.map (·.handle) := by
  have same := congrArg (List.map (·.1.handle)) (s.ran_lastPass code shared)
  simp only [List.map_map, aged] at same
  have there := List.mem_map_of_mem (f := fun e : Entry κ => e.task.handle) entry
  rw [show (s.lastPass code shared).entries.map (fun e => e.task.handle) = s.tasks.map (·.handle) from same] at there
  exact there

variable [TickTimer τ]

theorem Spent.act {n : Nat} {handle : Handle} {s : Scheduler κ τ} (spent : s.Spent n handle) (sound : s.Sound n)
    (a : Action κ) (few : n + Exchange.mintedIn (s.exchanges a) < Handle.numbers) :
    (s.act a).Spent (n + Exchange.mintedIn (s.exchanges a)) handle := by
  refine ⟨Nat.le_trans spent.given (Nat.le_add_right n _), ?_⟩
  cases a with
  | start period =>
    rw [Scheduler.act, (s.start_frame period).1]
    exact spent.gone
  | stop => exact spent.gone
  | ask q =>
    intro left
    rw [Scheduler.act, shows.leaves q sound] at left
    rcases Exchange.given_of_leaves left with old | given
    · exact spent.gone old
    · have next := sound.next
      rw [← given_registry given] at next
      have old := spent.given
      omega
  | tick code shared =>
    by_cases active : s.active
    · rw [exchanges, if_pos active] at few
      obtain ⟨run, -⟩ := s.underway_swept code shared
      have last := spent.firstPass.underway sound.firstPass run few
      rw [Scheduler.act, sound.tasks_tick active code shared few]
      exact last.not_mem_survivors
    · rw [Scheduler.act, (s.tick_stopped (by simpa using active) code shared).1]
      exact spent.gone

/-- A spent handle stays spent in every run while there are handles left. -/
theorem Spent.run {n : Nat} {handle : Handle} {s : Scheduler κ τ} (spent : s.Spent n handle) (sound : s.Sound n)
    (actions : List (Action κ)) (few : n + Exchange.mintedIn (s.history actions) < Handle.numbers) :
    (s.run actions).Spent (n + Exchange.mintedIn (s.history actions)) handle := by
  have all := run_induction
    (motive := fun history s => n + Exchange.mintedIn history < Handle.numbers →
      s.Sound (n + Exchange.mintedIn history) ∧ s.Spent (n + Exchange.mintedIn history) handle)
    (fun history s a before few => by
      rw [Exchange.mintedIn_append, ← Nat.add_assoc] at few ⊢
      obtain ⟨sound, spent⟩ := before (by omega)
      exact ⟨sound.act a few, spent.act sound a few⟩)
    actions [] s fun _ => ⟨sound, spent⟩
  exact (all few).2

/-- The task of a handle has left in a run: its run ended with a removal or a fault, or its removal took
effect. -/
def Departed (s : Scheduler κ τ) (actions : List (Action κ)) (handle : Handle) : Prop :=
  handle ∈ ((s.chronicle actions).map (·.2)).filterMap Event.removed?

instance (s : Scheduler κ τ) (actions : List (Action κ)) (handle : Handle) : Decidable (s.Departed actions handle) :=
  inferInstanceAs (Decidable (_ ∈ _))

/-- A task that was registered has left exactly where there is no task with its handle. -/
theorem departed_iff {capacity : Nat} {timer : τ} {actions : List (Action κ)} {handle : Handle}
    (few : Exchange.mintedIn ((empty capacity timer : Scheduler κ τ).history actions) < Handle.numbers) :
    (empty capacity timer : Scheduler κ τ).Departed actions handle ↔
      handle ∈ ((((empty capacity timer : Scheduler κ τ).chronicle actions).map (·.2)).filterMap Event.added?).map (·.1) ∧
        handle ∉ ((empty capacity timer : Scheduler κ τ).run actions).tasks.map (·.handle) := by
  let fresh : Scheduler κ τ := empty capacity timer
  have perm := (fresh.replays_run actions).perm
  have given := ((sound_empty capacity timer).fresh_run actions ((Nat.zero_add _).symm ▸ few)).once
  have live : ((fresh.run actions).registrations).map (·.1) = (fresh.run actions).tasks.map (·.handle) := by
    simp [registrations, Task.registration, Function.comp_def]
  rw [live] at perm
  have apart := (List.nodup_append.mp (perm.nodup ((fresh.added_run actions).nodup given))).2.2
  constructor
  · intro left
    exact ⟨perm.mem_iff.mpr (List.mem_append_left _ left), fun there => apart handle left handle there rfl⟩
  · rintro ⟨added, absent⟩
    exact (List.mem_append.mp (perm.mem_iff.mp added)).resolve_right absent

/-- The handle of a task that has left is spent. -/
theorem Departed.spent {capacity : Nat} {timer : τ} {actions : List (Action κ)} {handle : Handle}
    (departed : (empty capacity timer : Scheduler κ τ).Departed actions handle)
    (few : Exchange.mintedIn ((empty capacity timer : Scheduler κ τ).history actions) < Handle.numbers) :
    ((empty capacity timer : Scheduler κ τ).run actions).Spent
      (Exchange.mintedIn ((empty capacity timer : Scheduler κ τ).history actions)) handle := by
  obtain ⟨added, absent⟩ := (departed_iff few).mp departed
  have given := (added_run _ actions).subset added
  have counted := ((sound_empty capacity timer).fresh_run actions ((Nat.zero_add _).symm ▸ few)).counted handle given
  rw [Nat.zero_add] at counted
  exact ⟨counted, absent⟩

/-- Dead handles stay dead while there are handles left. A task leaves the registry where its run ends
with a removal or a fault, or where its removal takes effect, and in no other way. In the tick in which
its run has ended so, it is not there for the tasks that run after it, and does not run again; and its
end is an event of that tick. In every state after it has left, between ticks and in the middle of one,
no task has its handle, whatever is asked about the handle is refused and changes nothing, and no task
is run under it. -/
theorem dead_handles_stay_dead (capacity : Nat) (timer : τ) (earlier : List (Action κ)) (handle : Handle) :
    let fresh : Scheduler κ τ := empty capacity timer
    let before := fresh.run earlier
    let minted := Exchange.mintedIn (fresh.history earlier)
    (minted < Handle.numbers →
      (fresh.Departed earlier handle ↔
        handle ∈ (((fresh.chronicle earlier).map (·.2)).filterMap Event.added?).map (·.1) ∧
          handle ∉ before.tasks.map (·.handle))) ∧
    (∀ (history more : List (Exchange κ)) (p last : Pass κ), before.firstPass.Underway history p → handle ∈ p.ended →
      p.Underway more last → minted + Exchange.mintedIn (history ++ more) < Handle.numbers →
        Pass.registry.Lacks Pass.survivors handle last ∧ ∀ t ∈ last.waiting, t.handle ≠ handle) ∧
    (∀ {ρ : Type} (code : TaskCode κ ρ) (shared : ρ), before.active = true →
      handle ∈ (before.lastPass code shared).ended → fresh.Departed (earlier ++ [.tick code shared]) handle) ∧
    (fresh.Departed earlier handle → ∀ later, Exchange.mintedIn (fresh.history (earlier ++ later)) < Handle.numbers →
      let s := fresh.run (earlier ++ later)
      registry.Lacks (·.tasks) handle s ∧
      (∀ (history : List (Exchange κ)) (p : Pass κ), s.firstPass.Underway history p →
        Exchange.mintedIn (fresh.history (earlier ++ later) ++ history) < Handle.numbers →
          Pass.registry.Lacks Pass.survivors handle p ∧ ∀ t ∈ p.waiting, t.handle ≠ handle) ∧
      ∀ {ρ : Type} (code : TaskCode κ ρ) (shared : ρ), ∀ e ∈ (s.lastPass code shared).entries,
        e.ran = true → e.task.handle ≠ handle) := by
  intro fresh before minted
  have sound : minted < Handle.numbers → before.Sound minted := sound_run capacity timer earlier
  refine ⟨departed_iff, ?_, ?_, ?_⟩
  · intro history more p last run ended rest few
    rw [Exchange.mintedIn_append, ← Nat.add_assoc] at few
    have midTick := (sound (by omega)).firstPass.underway run (by omega)
    have spent := (midTick.spent ended).underway midTick rest few
    exact ⟨Pass.lacks spent.not_mem_survivors, fun t ahead => spent.waiting ahead⟩
  · intro ρ code shared active ended
    rw [before.ended_lastPass] at ended
    rw [Departed, chronicle_append, List.map_append, List.filterMap_append]
    apply List.mem_append_right
    rw [events_chronicle, happened, if_pos active, ticked, List.filterMap_append, List.filterMap_append]
    exact List.mem_append_left _ (List.mem_append_left _ ended)
  · intro departed later few s
    have known : s.Sound (Exchange.mintedIn (fresh.history (earlier ++ later))) :=
      sound_run capacity timer (earlier ++ later) few
    have spent : s.Spent (Exchange.mintedIn (fresh.history (earlier ++ later))) handle := by
      have parts : fresh.history (earlier ++ later) = fresh.history earlier ++ before.history later :=
        fresh.history_append earlier later
      have same : s = before.run later := fresh.run_append earlier later
      rw [parts, Exchange.mintedIn_append] at few ⊢
      rw [same]
      have unused : minted < Handle.numbers := Nat.lt_of_le_of_lt (Nat.le_add_right _ _) few
      exact (departed.spent unused).run (sound unused) later few
    refine ⟨lacks spent.gone, ?_, ?_⟩
    · intro history p run unused
      rw [Exchange.mintedIn_append] at unused
      have now := spent.firstPass.underway known.firstPass run unused
      exact ⟨Pass.lacks now.not_mem_survivors, fun t ahead => now.waiting ahead⟩
    · rintro ρ code shared e entry - rfl
      exact spent.gone (handle_of_entry entry)

/-- A task that asks for a task to be deleted that may be gone, and registers another at every run only to
have it deleted; any other task asks to be removed. -/
def churning : TaskCode Nat Unit
  | 0, _ => do
    let _ ← Program.delete ⟨1⟩
    match ← Program.add 2 .zero .visible with
    | .ok handle =>
      let _ ← Program.delete handle
      return (.ok (.again (.ofMillis 5)), ())
    | .error _ => return (.ok .remove, ())
  | _, _ => return (.ok (.again .zero), ())

/-- Two tasks that are due in the next tick. -/
def twoTasks : List (Action Nat) :=
  [.start (.ofMillis 10), .ask (.add 1 .zero .hidden), .ask (.add 0 .zero .visible)]

theorem dead_handles_stay_dead_churning :
    let fresh : Scheduler Nat ManualTimer := empty 4 .stopped
    let first := (fresh.run twoTasks).firstPass
    let amid := first.passed ⟨⟨⟨1⟩, 1, .ofMillis 10, .zero, .hidden⟩, some .removed⟩
      [⟨⟨2⟩, 0, .ofMillis 10, .zero, .visible⟩]
    let last := ((churning 0 ()).run Pass.registry amid).state
    let earlier := twoTasks ++ [.tick churning ()]
    let s := fresh.run (earlier ++ [.tick churning ()])
    let p := ((churning 0 ()).run Pass.registry s.firstPass).state
    ⟨1⟩ ∈ amid.ended ∧ last.changes.map (·.handle) = [⟨3⟩, ⟨3⟩] ∧ Pass.registry.Lacks Pass.survivors ⟨1⟩ last ∧
      fresh.Departed earlier ⟨1⟩ ∧ fresh.Departed earlier ⟨3⟩ ∧ s.tasks.map (·.identity) = [(0, ⟨2⟩, .visible)] ∧
      registry.Lacks (·.tasks) ⟨3⟩ s ∧ p.changes.map (·.handle) = [⟨5⟩, ⟨5⟩] ∧
      Pass.registry.Lacks Pass.survivors ⟨3⟩ p := by
  intro fresh first amid last earlier s p
  obtain ⟨-, midTick, told, -⟩ := dead_handles_stay_dead (κ := Nat) 4 ManualTimer.stopped twoTasks ⟨1⟩
  obtain ⟨-, -, -, gone⟩ := dead_handles_stay_dead (κ := Nat) 4 ManualTimer.stopped earlier ⟨3⟩
  have run : first.Underway [] amid := Pass.Underway.begun.settled .removed (by decide) (by decide)
  have rest : amid.Underway ((churning 0 ()).exchanges Pass.registry amid) last :=
    Pass.underway_run (churning 0 ()) .begun
  have departed : fresh.Departed earlier ⟨3⟩ := by decide
  obtain ⟨lacks, during, -⟩ := gone departed [.tick churning ()] (by decide)
  have now : s.firstPass.Underway ((churning 0 ()).exchanges Pass.registry s.firstPass) p :=
    Pass.underway_run (churning 0 ()) .begun
  refine ⟨by decide, by decide, (midTick _ _ amid last run (by decide) rest (by decide)).1, ?_, departed, by decide,
    lacks, by decide, (during _ p now (by decide)).1⟩
  exact told churning () rfl (by decide)

end Scheduler
end ConferenceBadge
