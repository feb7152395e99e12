import ConferenceBadge.Proofs.Scheduler.Queue

/-!
What a registry shows. Between ticks it shows the tasks that are registered, in the middle of one those
that are left. Either way its answers are true of these tasks, and they alone say what is shown next
(`Registry.Shows`). In the middle of a tick more requests are refused, for want of room; a script that
meets none of these refusals cannot tell the two registries apart (`same_answers_mid_tick`).
-/
namespace ConferenceBadge

variable {κ τ σ α : Type}

namespace Exchange

/-- The tasks that an answer leaves. -/
def leaves (e : Exchange κ) (tasks : List (Task κ)) : List (Task κ) :=
  match e.change? with
  | none => tasks
  | some c => tasks.filterMap (Change.applied? · c) ++ c.added?.toList

/-- Only a request to register a task adds it. -/
theorem asked_of_added {e : Exchange κ} {c : Change κ} {t : Task κ} (promised : e.change? = some c)
    (added : c.added? = some t) : ∃ target visibility, e = ⟨.add t.key target visibility, .ok t.handle⟩ := by
  unfold change? at promised
  split at promised
  · obtain rfl := Option.some.inj promised
    obtain rfl := Option.some.inj added
    exact ⟨_, _, rfl⟩
  · obtain rfl := Option.some.inj promised
    contradiction
  · obtain rfl := Option.some.inj promised
    contradiction
  · contradiction

/-- What an answer says of the tasks that there are when it is given. A refusal says nothing. -/
def Truthful : Exchange κ → List (Task κ) → Prop
  | ⟨.add .., .ok handle⟩, tasks => handle ∉ tasks.map (·.handle)
  | ⟨.update handle _, true⟩, tasks | ⟨.delete handle, true⟩, tasks => handle ∈ tasks.map (·.handle)
  | ⟨.contains handle, there⟩, tasks => there ↔ handle ∈ tasks.map (·.handle)
  | ⟨.idleTime, idle⟩, tasks => idle = Task.idleTime tasks
  | _, _ => True

end Exchange

/-- A registry shows tasks of which its answers are true and which follow from its answers, as long as
it is sound for the number of handles that it has given out. -/
structure Registry.Shows (registry : Registry κ σ) (view : σ → List (Task κ)) (sound : Nat → σ → Prop) : Prop where
  kept : ∀ {n s} (q : Request κ), sound n s → n + Exchange.minted ⟨q, (registry q s).answer⟩ < Handle.numbers →
    sound (n + Exchange.minted ⟨q, (registry q s).answer⟩) (registry q s).state
  leaves : ∀ {n s} (q : Request κ), sound n s →
    view (registry q s).state = Exchange.leaves ⟨q, (registry q s).answer⟩ (view s)
  truthful : ∀ {n s} (q : Request κ), sound n s → Exchange.Truthful ⟨q, (registry q s).answer⟩ (view s)

namespace Scheduler

variable [ToString κ]

theorem shows : (registry : Registry κ (Scheduler κ τ)).Shows (·.tasks) Sound where
  kept q sound few := sound.registry q few
  leaves := by
    intro n s q sound
    cases q with
    | add key target visibility =>
      by_cases vacant : s.tasks.length < s.capacity
      · have whole : s.tasks.filterMap (Change.applied? · (.add (.fresh s.nextHandle key target visibility))) =
            s.tasks := List.filterMap_some
        simp only [registry, add, vacant, ↓reduceIte, Exchange.leaves, Exchange.change?, whole]
        rfl
      · simp only [registry, add, vacant, ↓reduceIte]
        rfl
    | update handle target =>
      by_cases there : s.contains handle
      · have rearmed := restartFirst_eq_filterMap handle target sound.distinct
        simp only [registry, update, there, ↓reduceIte, Exchange.leaves, Exchange.change?, recorded, rearmed]
        exact (List.append_nil _).symm
      · simp only [registry, update, there, Bool.false_eq_true, ↓reduceIte]
        rfl
    | delete handle =>
      have gone := dropFirst_eq_filterMap handle sound.distinct
      simp only [registry, delete]
      cases s.find? handle with
      | some task => exact gone.trans (List.append_nil _).symm
      | none => rfl
    | contains handle => rfl
    | idleTime => rfl
  truthful := by
    intro n s q sound
    cases q with
    | add key target visibility =>
      by_cases vacant : s.tasks.length < s.capacity
      · simp only [registry, add, vacant, ↓reduceIte, Exchange.Truthful]
        intro member
        have old := sound.given _ member
        have next := sound.next
        omega
      · simp only [registry, add, vacant, ↓reduceIte]
        trivial
    | update handle target =>
      by_cases there : s.contains handle
      · simp only [registry, update, there, ↓reduceIte]
        exact contains_iff.mp there
      · simp only [registry, update, there, Bool.false_eq_true, ↓reduceIte]
        trivial
    | delete handle =>
      simp only [registry, delete]
      cases found : s.find? handle with
      | some task => exact contains_iff.mp (by rw [contains, found]; rfl)
      | none => trivial
    | contains handle => exact contains_iff
    | idleTime => rfl

end Scheduler

/-- A tick begins with the tasks that there are, one period later. -/
theorem Scheduler.survivors_firstPass (s : Scheduler κ τ) : s.firstPass.survivors = s.aged := by
  rw [Pass.survivors_eq rfl]
  simp [Pass.entries, firstPass, begin, List.filterMap_map, Function.comp_def, Entry.survivor?]

namespace Pass

/-- Every task that is left after a task has been passed was left before, but for what it waits for. -/
theorem identity_survivors_passed {p : Pass κ} {t : Task κ} {rest : List (Task κ)} (head : p.waiting = t :: rest)
    (settlement : Option Settlement) {u : Task κ} (left : u ∈ (p.passed ⟨t, settlement⟩ rest).survivors) :
    ∃ v ∈ p.survivors, u.identity = v.identity := by
  obtain ⟨b, based, spares⟩ := List.mem_filterMap.mp left
  have kept : p.changes.foldlM Change.applied? b = some u := spares
  obtain ⟨a, there, same⟩ : ∃ a ∈ p.base, b.identity = a.identity := by
    rcases List.mem_append.mp based with survived | added
    · obtain ⟨e, entry, survives⟩ := List.mem_filterMap.mp survived
      simp only [entries, passed, List.append_assoc, List.singleton_append, List.mem_append, List.mem_cons] at entry
      rcases entry with earlier | rfl | later
      · have before : e ∈ p.entries := List.mem_append_left _ earlier
        exact ⟨b, List.mem_append_left _ (List.mem_filterMap.mpr ⟨e, before, survives⟩), rfl⟩
      · have before : (⟨t, none⟩ : Entry κ) ∈ p.entries := by simp [entries, head]
        refine ⟨t, List.mem_append_left _ (List.mem_filterMap.mpr ⟨_, before, rfl⟩), ?_⟩
        exact identity_of_survivor? survives
      · have before : e ∈ p.entries := by simpa [entries, head] using .inr (.inr (by simpa using later))
        exact ⟨b, List.mem_append_left _ (List.mem_filterMap.mpr ⟨e, before, survives⟩), rfl⟩
    · exact ⟨b, List.mem_append_right _ added, rfl⟩
  -- Both have one handle, and the changes remove either none of the two or both.
  have spared : a.handle ∉ p.changes.filterMap Change.deleted? := by
    have whole : (p.changes.foldlM Change.applied? b).isSome := by rw [kept]; rfl
    exact Task.handle_of_identity same ▸ Change.foldlM_applied?_isSome.mp whole
  obtain ⟨v, whole⟩ := Option.isSome_iff_exists.mp (Change.foldlM_applied?_isSome.mpr spared)
  refine ⟨v, List.mem_filterMap.mpr ⟨a, there, whole⟩, ?_⟩
  exact (Change.identity_of_foldlM kept).trans (same.trans (Change.identity_of_foldlM whole).symm)

theorem live_of_enqueueFor {p : Pass κ} {handle : Handle} {c : Change κ}
    (accepted : (p.enqueueFor handle c).answer = true) : handle ∈ p.survivors.map (·.handle) := by
  simp only [enqueueFor] at accepted
  split at accepted
  · next there => exact contains_iff.mp there
  · contradiction

variable [ToString κ]

theorem handle_of_accepted {p : Pass κ} {key : κ} {target : Duration} {visibility : Visibility} {handle : Handle}
    (accepted : (registry (.add key target visibility) p).answer = .ok handle) : handle = p.nextHandle := by
  simp only [registry, add] at accepted
  split at accepted
  · split at accepted
    · exact (Except.ok.inj accepted).symm
    · contradiction
  · contradiction

theorem shows : (registry : Registry κ (Pass κ)).Shows survivors Sound where
  kept q sound few := sound.registry q few
  leaves := by
    intro n p q sound
    obtain ⟨waiting, visited, -⟩ := registry_frame q p
    have entries : (registry q p).state.entries = p.entries := by rw [Pass.entries, waiting, visited, Pass.entries]
    have changes := p.changes_asked q
    show Change.overlaid (registry q p).state.changes ((registry q p).state.entries.filterMap Entry.survivor?) = _
    rw [entries, changes, Exchange.leaves]
    cases promised : Exchange.change? ⟨q, (registry q p).answer⟩ with
    | none =>
      rw [Option.toList_none, List.append_nil]
      rfl
    | some c =>
      refine Change.overlaid_append_one p.changes _ c ?_
      rintro task rfl earlier member same
      -- A handle that a change names was given out before, and this one was not.
      have old := sound.named earlier member
      have next := sound.next
      have mine : task.handle = p.nextHandle := by
        obtain ⟨target, visibility, asked⟩ := Exchange.asked_of_added promised rfl
        simp only [Sigma.mk.injEq] at asked
        obtain ⟨rfl, accepted⟩ := asked
        exact handle_of_accepted (eq_of_heq accepted)
      rw [same, mine] at old
      omega
  truthful := by
    intro n p q sound
    cases q with
    | add key target visibility =>
      cases accepted : (registry (.add key target visibility) p).answer with
      | ok handle =>
        rw [handle_of_accepted accepted]
        intro member
        have old := sound.given _ (p.handles_survivors_sublist.subset member)
        have next := sound.next
        omega
      | error e => trivial
    | update handle target =>
      cases accepted : (registry (.update handle target) p).answer with
      | true => exact live_of_enqueueFor accepted
      | false => trivial
    | delete handle =>
      cases accepted : (registry (.delete handle) p).answer with
      | true => exact live_of_enqueueFor accepted
      | false => trivial
    | contains handle => exact contains_iff
    | idleTime => rfl

/-- Whether a tick in progress has room for a request: a place and room in the queue for a task to be
added, room in the queue for a change to a task that is left. -/
def RoomFor (p : Pass κ) : Request κ → Prop
  | .add .. => p.occupied < p.capacity ∧ p.hasRoom
  | .update handle _ | .delete handle => p.contains handle → p.hasRoom
  | .contains _ | .idleTime => True

/-- Whether a tick in progress has room for every request of a script. -/
def RoomForAll : Script κ α → Pass κ → Prop
  | .done _, _ => True
  | .ask q next, p => p.RoomFor q ∧ RoomForAll (next (registry q p).answer) (registry q p).state
  | .call c _, _ => Empty.elim c
  | .note _ next, p => RoomForAll next p

instance RoomFor.decidable (p : Pass κ) : (q : Request κ) → Decidable (p.RoomFor q)
  | .add .. => inferInstanceAs (Decidable (_ ∧ _))
  | .update .. | .delete _ => inferInstanceAs (Decidable (_ → _))
  | .contains _ | .idleTime => inferInstanceAs (Decidable True)

instance RoomForAll.decidable : (script : Script κ α) → (p : Pass κ) → Decidable (RoomForAll script p)
  | .done _, _ => inferInstanceAs (Decidable True)
  | .ask q next, p =>
    have := RoomForAll.decidable (next (registry q p).answer) (registry q p).state
    inferInstanceAs (Decidable (p.RoomFor q ∧ RoomForAll _ _))
  | .call c _, _ => Empty.elim c
  | .note _ next, p => RoomForAll.decidable next p

/-- A scheduler between ticks with the tasks that are left in the middle of one, and the same handle to
give out next. -/
structure Mirrors (p : Pass κ) (between : Scheduler κ τ) : Prop where
  capacity : between.capacity = p.capacity
  tasks : between.tasks = p.survivors
  next : between.nextHandle = p.nextHandle

variable {p : Pass κ} {between : Scheduler κ τ} {n : Nat}

omit [ToString κ] in
theorem Mirrors.sound (mirrors : p.Mirrors between) (sound : p.Sound n) : between.Sound n := by
  refine ⟨?_, ?_, ?_, ?_⟩
  · rw [mirrors.next]
    exact sound.next
  · rw [mirrors.tasks]
    exact p.handles_survivors_sublist.nodup sound.distinct
  · intro h member
    rw [mirrors.tasks] at member
    exact sound.given h (p.handles_survivors_sublist.subset member)
  · rw [mirrors.tasks, mirrors.capacity]
    exact Nat.le_trans p.length_survivors_le sound.room

omit [ToString κ] in
theorem Mirrors.contains_eq (mirrors : p.Mirrors between) (handle : Handle) :
    between.contains handle = p.contains handle := by
  rw [Bool.eq_iff_iff, Scheduler.contains_iff, contains_iff, mirrors.tasks]

/-- A request for which there is room is answered as it is between ticks. -/
theorem Mirrors.answer (mirrors : p.Mirrors between) {q : Request κ} (room : p.RoomFor q) :
    (registry q p).answer = (Scheduler.registry q between).answer ∧
      (Scheduler.registry q between).state.nextHandle = (registry q p).state.nextHandle := by
  cases q with
  | add key target visibility =>
    obtain ⟨vacant, fits⟩ := room
    have place : between.tasks.length < between.capacity := by
      rw [mirrors.tasks, mirrors.capacity]
      exact Nat.lt_of_le_of_lt p.length_survivors_le vacant
    simp only [registry, add, vacant, fits, Scheduler.registry, Scheduler.add, place, ↓reduceIte, mirrors.next]
    exact ⟨trivial, rfl⟩
  | update handle target =>
    simp only [registry, enqueueFor, Scheduler.registry, Scheduler.update, mirrors.contains_eq]
    by_cases there : p.contains handle
    · simp only [there, room there, ↓reduceIte]
      exact ⟨trivial, mirrors.next⟩
    · simp only [there, Bool.false_eq_true, ↓reduceIte]
      exact ⟨trivial, mirrors.next⟩
  | delete handle =>
    have same := mirrors.contains_eq handle
    rw [Scheduler.contains] at same
    simp only [registry, enqueueFor, Scheduler.registry, Scheduler.delete]
    cases found : between.find? handle with
    | some task =>
      rw [found] at same
      have there : p.contains handle = true := same.symm
      simp only [there, room there, ↓reduceIte]
      exact ⟨trivial, mirrors.next⟩
    | none =>
      rw [found] at same
      have absent : p.contains handle = false := same.symm
      simp only [absent, Bool.false_eq_true, ↓reduceIte]
      exact ⟨trivial, mirrors.next⟩
  | contains handle => exact ⟨(mirrors.contains_eq handle).symm, mirrors.next⟩
  | idleTime => exact ⟨congrArg Task.idleTime mirrors.tasks.symm, mirrors.next⟩

/-- The same answer leaves the same tasks. -/
theorem Mirrors.asked (mirrors : p.Mirrors between) (sound : p.Sound n) {q : Request κ} (room : p.RoomFor q) :
    (registry q p).state.Mirrors (Scheduler.registry q between).state := by
  obtain ⟨same, next⟩ := mirrors.answer room
  refine ⟨?_, ?_, next⟩
  · rw [Scheduler.capacity_registry, mirrors.capacity]
    exact (registry_frame q p).2.2.symm
  · rw [Scheduler.shows.leaves q (mirrors.sound sound), shows.leaves q sound, same, mirrors.tasks]

end Pass

namespace Script

/-- The states after the requests of a script, one for each. -/
def states (registry : Registry κ σ) : Script κ α → σ → List σ
  | .done _, _ => []
  | .ask q next, s => (registry q s).state :: states registry (next (registry q s).answer) (registry q s).state
  | .call c _, _ => Empty.elim c
  | .note _ next, s => states registry next s

end Script

namespace Pass

variable [ToString κ]

/-- What holds of every request holds of a script, request by request. -/
theorem Mirrors.run {p : Pass κ} {between : Scheduler κ τ} {n : Nat} (mirrors : p.Mirrors between)
    (sound : p.Sound n) {script : Script κ α} (room : RoomForAll script p)
    (few : n + Exchange.mintedIn (script.exchanges registry p) < Handle.numbers) :
    script.exchanges registry p = script.exchanges Scheduler.registry between ∧
      (script.run registry p).answer = (script.run Scheduler.registry between).answer ∧
      (script.states registry p).map survivors = (script.states Scheduler.registry between).map (·.tasks) := by
  induction script generalizing p between n with
  | done a => exact ⟨rfl, rfl, rfl⟩
  | ask q next ih =>
    obtain ⟨here, later⟩ := room
    obtain ⟨same, -⟩ := mirrors.answer here
    have after := mirrors.asked sound here
    rw [Script.exchanges, Exchange.mintedIn, ← Nat.add_assoc] at few
    obtain ⟨exchanges, answer, views⟩ := ih _ after (sound.registry q (by omega)) later few
    have rest : next (registry q p).answer = next (Scheduler.registry q between).answer := congrArg next same
    rw [rest] at exchanges answer views
    refine ⟨?_, ?_, ?_⟩
    · rw [Script.exchanges, Script.exchanges, rest, exchanges, same]
    · rw [Script.answer_ask, Script.answer_ask, rest]
      exact answer
    · rw [Script.states, Script.states, List.map_cons, List.map_cons, rest, views, after.tasks]
  | call c next ih => exact Empty.elim c
  | note line next ih =>
    exact ih mirrors sound room few

end Pass

namespace Scheduler

variable [ToString κ]

/-- What the end of a tick would leave mirrors the pass that it ends. -/
theorem mirrors_commit {n : Nat} {s : Scheduler κ τ} {p : Pass κ} (sound : p.Sound n)
    (same : p.capacity = s.capacity) : p.Mirrors (s.commit p).state := by
  obtain ⟨capacity, next⟩ := commit_frame s p
  exact ⟨capacity.trans same.symm, tasks_commit sound same, next⟩

/-- In the middle of a tick a script is answered, request by request, as it is between ticks where the
tasks are those that are left, and after every request both show the same tasks. The tick needs room for
what the script asks, and handles may not have been used up. -/
theorem same_answers_mid_tick [TickTimer τ] (capacity : Nat) (timer : τ) (actions : List (Action κ))
    {history : List (Exchange κ)} {p : Pass κ}
    (underway : ((empty capacity timer : Scheduler κ τ).run actions).firstPass.Underway history p)
    {between : Scheduler κ σ} (mirrors : p.Mirrors between) {script : Script κ α}
    (room : Pass.RoomForAll script p)
    (unused : Exchange.mintedIn ((empty capacity timer : Scheduler κ τ).history actions) +
      Exchange.mintedIn (history ++ script.exchanges Pass.registry p) < Handle.numbers) :
    script.exchanges Pass.registry p = script.exchanges registry between ∧
      (script.run Pass.registry p).answer = (script.run registry between).answer ∧
      (script.states Pass.registry p).map Pass.survivors = (script.states registry between).map (·.tasks) := by
  rw [Exchange.mintedIn_append, ← Nat.add_assoc] at unused
  have sound := sound_run capacity timer actions (by omega)
  exact mirrors.run (sound.firstPass.underway underway (by omega)) room unused

/-- A script that registers a task and asks about tasks of every kind: one that waits, one that was added
just now, one that was taken out and one that never was. -/
def prying : Script Nat (Except RegistryError Handle × IdleTime) := do
  let added ← Program.add 7 (.ofMillis 30) .visible
  let _ ← Program.update ⟨3⟩ (.ofMillis 20)
  let _ ← Program.update ⟨1⟩ (.ofMillis 20)
  let _ ← Program.delete ⟨4⟩
  let _ ← Program.contains ⟨4⟩
  let _ ← Program.delete ⟨9⟩
  let idle ← Program.idleTime
  return (added, idle)

theorem same_answers_mid_tick_prying :
    let s : Scheduler Nat ManualTimer := (empty 5 .stopped).run threeTasks
    let history := (meddling 0 ()).exchanges Pass.registry s.firstPass
    let p := ((meddling 0 ()).run Pass.registry s.firstPass).state
    s.firstPass.Underway history p ∧ p.Mirrors (s.commit p).state ∧ Pass.RoomForAll prying p ∧
      Exchange.mintedIn ((empty 5 .stopped : Scheduler Nat ManualTimer).history threeTasks) +
        Exchange.mintedIn (history ++ prying.exchanges Pass.registry p) < Handle.numbers ∧
      prying.exchanges registry (s.commit p).state =
        [⟨.add 7 (.ofMillis 30) .visible, .ok ⟨5⟩⟩, ⟨.update ⟨3⟩ (.ofMillis 20), true⟩,
          ⟨.update ⟨1⟩ (.ofMillis 20), false⟩, ⟨.delete ⟨4⟩, true⟩, ⟨.contains ⟨4⟩, false⟩, ⟨.delete ⟨9⟩, false⟩,
          ⟨.idleTime, .lasting (.ofMillis 7)⟩] ∧
      (prying.states Pass.registry p).map Pass.survivors =
        (prying.states registry (s.commit p).state).map (·.tasks) := by
  intro s history p
  have underway : s.firstPass.Underway history p := Pass.underway_run (meddling 0 ()) .begun
  have sound := sound_run (κ := Nat) 5 ManualTimer.stopped threeTasks (by decide)
  have mirrors : p.Mirrors (s.commit p).state :=
    mirrors_commit (sound.firstPass.underway underway (by decide)) (Pass.capacity_underway underway)
  have room : Pass.RoomForAll prying p := by decide
  have unused : Exchange.mintedIn ((empty 5 .stopped : Scheduler Nat ManualTimer).history threeTasks) +
      Exchange.mintedIn (history ++ prying.exchanges Pass.registry p) < Handle.numbers := by decide
  obtain ⟨same, -, views⟩ := same_answers_mid_tick 5 ManualTimer.stopped threeTasks underway mirrors room unused
  refine ⟨underway, mirrors, room, unused, same.symm.trans ?_, views⟩
  subst p history s
  rfl

end Scheduler
end ConferenceBadge
