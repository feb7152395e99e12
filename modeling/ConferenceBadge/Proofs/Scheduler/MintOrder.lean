import ConferenceBadge.Proofs.Scheduler.Counting
import ConferenceBadge.Proofs.Scheduler.DeadHandles

/-!
The order in which handles are given out. The `n`-th handle of a run is given by `n`, also after the
numbers have started over (`Handle.After`). Tasks that are registered under the number of their handle
stand in the order of these numbers: additions go to the end, and outcomes and changes move no task
(`Task.InMintOrder`). Every step of a tick and every action keeps this (`Counted`), and so all runs do
(`handles_in_mint_order`).
-/
namespace ConferenceBadge

variable {κ τ ρ α : Type}

namespace Handle

/-- The handle given out after `n` others. -/
def After (n : Nat) (h : Handle) : Prop := h.id.toNat = n % numbers + 1

theorem After.next {n : Nat} {h : Handle} (after : h.After n) : h.next.After (n + 1) := by
  simp only [After] at after ⊢
  by_cases last : h.id.toNat < numbers
  · rw [toNat_next last]
    simp only [numbers] at after last ⊢
    omega
  · have wrapped : h.id + 1 = 0 := by
      apply UInt32.toNat_inj.mp
      rw [UInt32.toNat_add]
      have bound := h.id.toNat_lt
      simp only [numbers] at last
      have highest : h.id.toNat = 4294967295 := by omega
      rw [highest]
      rfl
    simp only [Handle.next, wrapped, ↓reduceIte]
    simp only [numbers] at after last ⊢
    show 1 = _
    omega

end Handle

namespace Task

/-- Tasks registered under the numbers of their handles stand in the order of these numbers, and none of
the numbers is past `n`. -/
structure InMintOrder (n : Nat) (tasks : List (Task (κ × Nat))) : Prop where
  ordered : tasks.Pairwise fun t u => t.key.2 < u.key.2
  numbered : ∀ t ∈ tasks, ∃ earlier < n, t.key.2 = earlier + 1 ∧ t.handle.After earlier

namespace InMintOrder

variable {n : Nat} {tasks others : List (Task (κ × Nat))}

theorem nil : InMintOrder n ([] : List (Task (κ × Nat))) :=
  ⟨List.Pairwise.nil, fun _ member => absurd member List.not_mem_nil⟩

theorem mono (order : InMintOrder n tasks) {m : Nat} (le : n ≤ m) : InMintOrder m tasks := by
  refine ⟨order.ordered, fun t member => ?_⟩
  obtain ⟨earlier, bound, same⟩ := order.numbered t member
  exact ⟨earlier, Nat.lt_of_lt_of_le bound le, same⟩

/-- What tasks wait for does not matter, nor that some are gone. -/
theorem of_identity (order : InMintOrder n tasks) (kept : (others.map (·.identity)).Sublist (tasks.map (·.identity))) :
    InMintOrder n others := by
  constructor
  · have known : (tasks.map (·.identity)).Pairwise fun a b => a.1.2 < b.1.2 := List.pairwise_map.mpr order.ordered
    have ordered := known.sublist kept
    rw [List.pairwise_map] at ordered
    exact ordered
  · intro t member
    obtain ⟨u, there, same⟩ := List.mem_map.mp (kept.subset (List.mem_map_of_mem member))
    simp only [identity, Prod.mk.injEq] at same
    obtain ⟨key, handle, -⟩ := same
    rw [← key, ← handle]
    exact order.numbered u there

/-- The next handle goes to a task behind the others. -/
theorem add (order : InMintOrder n tasks) {t : Task (κ × Nat)} (number : t.key.2 = n + 1) (next : t.handle.After n) :
    InMintOrder (n + 1) (tasks ++ [t]) := by
  constructor
  · refine List.pairwise_append.mpr ⟨order.ordered, List.pairwise_singleton _ _, ?_⟩
    intro u member last isLast
    obtain ⟨earlier, bound, same, -⟩ := order.numbered u member
    rw [List.mem_singleton.mp isLast]
    omega
  · intro u member
    rcases List.mem_append.mp member with old | new
    · exact (order.mono (Nat.le_succ n)).numbered u old
    · rw [List.mem_singleton.mp new]
      exact ⟨n, Nat.lt_succ_self n, number, next⟩

/-- Two tasks share a handle exactly where their numbers differ by a multiple of how many handles there
are. -/
theorem handle_eq_iff (order : InMintOrder n tasks) {t u : Task (κ × Nat)} (one : t ∈ tasks) (other : u ∈ tasks) :
    t.handle = u.handle ↔ (Handle.numbers : Int) ∣ (t.key.2 : Int) - u.key.2 := by
  obtain ⟨a, -, number, here⟩ := order.numbered t one
  obtain ⟨b, -, number', there⟩ := order.numbered u other
  have numerals : t.handle = u.handle ↔ t.handle.id.toNat = u.handle.id.toNat := by
    rw [UInt32.toNat_inj, Handle.mk.injEq]
  rw [numerals, number, number', here, there]
  simp only [Handle.numbers]
  omega

/-- Handles are distinct while the oldest task is not as many handles older than the newest as there
are. -/
theorem nodup (order : InMintOrder n tasks) {oldest newest : Task (κ × Nat)} (first : tasks.head? = some oldest)
    (last : tasks.getLast? = some newest) (close : newest.key.2 < oldest.key.2 + Handle.numbers) :
    (tasks.map (·.handle)).Nodup := by
  have above : ∀ t ∈ tasks, oldest.key.2 ≤ t.key.2 := by
    obtain ⟨rest, rfl⟩ := List.head?_eq_some_iff.mp first
    intro t member
    rcases List.mem_cons.mp member with rfl | later
    · exact Nat.le_refl _
    · exact Nat.le_of_lt ((List.pairwise_cons.mp order.ordered).1 t later)
  have below : ∀ t ∈ tasks, t.key.2 ≤ newest.key.2 := by
    obtain ⟨rest, rfl⟩ := List.getLast?_eq_some_iff.mp last
    intro t member
    rcases List.mem_append.mp member with earlier | same
    · exact Nat.le_of_lt ((List.pairwise_append.mp order.ordered).2.2 t earlier newest List.mem_cons_self)
    · exact Nat.le_of_eq (congrArg (·.key.2) (List.mem_singleton.mp same))
  refine List.pairwise_map.mpr (order.ordered.imp_of_mem ?_)
  intro t u one other less same
  obtain ⟨k, apart⟩ := (order.handle_eq_iff one other).mp same
  have low := above t one
  have high := below u other
  simp only [Handle.numbers] at apart close
  omega

end InMintOrder
end Task

namespace Exchange

/-- The answer to a request asked after `n` handles: a task is registered under the number of its handle,
which is the next one. -/
structure Numbered (n : Nat) (e : Exchange (κ × Nat)) : Prop where
  number : ∀ key target visibility, e.1 = .add key target visibility → key.2 = n + 1
  handle : ∀ h, e.given? = some h → h.After n

/-- Code that counts handles names the number itself. -/
theorem Numbered.of_given {n : Nat} {q : Request κ} {answer : (q.relabel (·, n + 1)).Answer}
    (next : ∀ h, given? ⟨q.relabel (·, n + 1), answer⟩ = some h → h.After n) :
    Numbered n ⟨q.relabel (·, n + 1), answer⟩ := by
  refine ⟨?_, next⟩
  intro key target visibility same
  cases q with
  | add name delay sight => exact (Request.add.inj same).1 ▸ rfl
  | update | delete | contains | idleTime => contradiction

/-- What is asked and answered after `n` handles counts the handles on. -/
def Counted : Nat → List (Exchange (κ × Nat)) → Prop
  | _, [] => True
  | n, e :: rest => e.Numbered n ∧ Counted (n + e.minted) rest

theorem counted_append {n : Nat} {earlier later : List (Exchange (κ × Nat))} :
    Counted n (earlier ++ later) ↔ Counted n earlier ∧ Counted (n + mintedIn earlier) later := by
  induction earlier generalizing n with
  | nil => simp [Counted]
  | cons e rest ih => rw [List.cons_append, Counted, Counted, ih, mintedIn, and_assoc, Nat.add_assoc]

/-- A task that an answer adds goes behind the others. -/
theorem Numbered.tasks {n : Nat} {e : Exchange (κ × Nat)} (numbered : e.Numbered n) {tasks : List (Task (κ × Nat))}
    (order : Task.InMintOrder n tasks) :
    Task.InMintOrder (n + e.minted) (tasks ++ e.change?.toList.filterMap Change.added?) := by
  obtain ⟨q, answer⟩ := e
  have rest : Task.InMintOrder n (tasks ++ []) := (List.append_nil tasks).symm ▸ order
  cases q with
  | add key target visibility =>
    cases answer with
    | ok handle => exact order.add (numbered.number key target visibility rfl) (numbered.handle handle rfl)
    | error e =>
      cases e with
      | registryFull => exact rest
      | changesetFull => exact rest.mono (Nat.le_succ n)
  | update handle target => cases answer <;> exact rest
  | delete handle => cases answer <;> exact rest
  | contains handle => exact rest
  | idleTime => exact rest

end Exchange

namespace Pass

/-- The tasks of a tick and those that it adds, in order of registration. -/
def registered (p : Pass κ) : List (Task κ) := p.entries.map (·.task) ++ p.changes.filterMap Change.added?

/-- What holds of a pass in a run that has given out `n` handles so far and counts them. -/
structure Counted (n : Nat) (p : Pass (κ × Nat)) : Prop where
  next : p.nextHandle.After n
  order : Task.InMintOrder n p.registered

theorem Counted.passed {n : Nat} {p : Pass (κ × Nat)} (counted : p.Counted n) {t : Task (κ × Nat)}
    {rest : List (Task (κ × Nat))} (head : p.waiting = t :: rest) (settlement : Option Settlement) :
    (p.passed ⟨t, settlement⟩ rest).Counted n := by
  refine ⟨counted.next, ?_⟩
  rw [registered, tasks_passed head settlement]
  exact counted.order

variable [ToString κ]

/-- A tick in progress gives out the handles one after the other. -/
theorem next_registry {n : Nat} {p : Pass κ} (next : p.nextHandle.After n) (q : Request κ) :
    (registry q p).state.nextHandle.After (n + Exchange.minted ⟨q, (registry q p).answer⟩) := by
  have about (handle : Handle) (c : Change κ) : (p.enqueueFor handle c).state.nextHandle = p.nextHandle := by
    simp only [enqueueFor]
    split
    · split <;> rfl
    · rfl
  cases q with
  | add key target visibility =>
    simp only [registry, add]
    split
    · split
      · exact next.next
      · exact next.next
    · exact next
  | update handle target => exact (about handle (.retarget handle target)).symm ▸ next
  | delete handle => exact (about handle (.delete handle)).symm ▸ next
  | contains handle => exact next
  | idleTime => exact next

theorem next_underway {n : Nat} {first p : Pass κ} {history : List (Exchange κ)} (next : first.nextHandle.After n)
    (run : first.Underway history p) : p.nextHandle.After (n + Exchange.mintedIn history) := by
  induction run with
  | begun => exact next
  | asked q earlier ih =>
    rw [Exchange.mintedIn_append, Exchange.mintedIn_singleton, ← Nat.add_assoc]
    exact next_registry ih q
  | skipped earlier head early ih => exact ih
  | settled settlement earlier head due ih => exact ih

theorem Counted.registry {n : Nat} {p : Pass (κ × Nat)} (counted : p.Counted n) (q : Request κ) :
    let e : Exchange (κ × Nat) := ⟨q.relabel (·, n + 1), (registry (q.relabel (·, n + 1)) p).answer⟩
    e.Numbered n ∧ (registry e.1 p).state.Counted (n + e.minted) := by
  intro e
  have numbered : e.Numbered n := .of_given fun h given => given_registry given ▸ counted.next
  refine ⟨numbered, next_registry counted.next _, ?_⟩
  obtain ⟨waiting, visited, -⟩ := registry_frame e.1 p
  rw [registered, changes_asked, List.filterMap_append, entries, waiting, visited, ← List.append_assoc]
  exact numbered.tasks counted.order

end Pass

/-- Code that counts handles keeps the count. -/
theorem Script.counted_run [ToString κ] (script : Script κ α) {n : Nat} {p : Pass (κ × Nat)} (counted : p.Counted n) :
    let ran := (script.counting n).run Pass.registry p
    let asked := (script.counting n).exchanges Pass.registry p
    ran.answer.2 = n + Exchange.mintedIn asked ∧ ran.state.Counted ran.answer.2 ∧ Exchange.Counted n asked := by
  induction script generalizing n p with
  | done a => exact ⟨rfl, counted, trivial⟩
  | ask q next ih =>
    obtain ⟨numbered, after⟩ := counted.registry q
    have minted := congrArg Exchange.minted
      (Exchange.relabel_answerOf (f := Prod.fst) (g := (·, n + 1)) (fun _ => rfl) q
        (Pass.registry (q.relabel (·, n + 1)) p).answer)
    rw [Exchange.minted_relabel] at minted
    rw [minted] at after
    obtain ⟨count, last, rest⟩ := ih (q.answerOf (Pass.registry (q.relabel (·, n + 1)) p).answer) after
    refine ⟨?_, last, numbered, ?_⟩
    · rw [counting, answer_ask, exchanges, Exchange.mintedIn, minted, ← Nat.add_assoc]
      exact count
    · rw [minted]
      exact rest
  | call c next ih => exact Empty.elim c
  | note line next ih => exact ih counted

namespace Sweep

variable [ToString κ]

/-- A run that counts handles keeps the count. -/
theorem counted_dispatch (code : TaskCode κ ρ) (uptime : Duration) {sweep : Sweep (κ × Nat) (ρ × Nat)}
    {t : Task (κ × Nat)} {rest : List (Task (κ × Nat))} (counted : sweep.pass.Counted sweep.shared.2)
    (head : sweep.pass.waiting = t :: rest) :
    let after := (sweep.dispatch code.counting uptime t rest).state
    let asked := (code.counting t.key sweep.shared).exchanges Pass.registry { sweep.pass with waiting := t :: rest }
    after.shared.2 = sweep.shared.2 + Exchange.mintedIn asked ∧ after.pass.Counted after.shared.2 ∧
      Exchange.Counted sweep.shared.2 asked := by
  intro after asked
  have same : { sweep.pass with waiting := t :: rest } = sweep.pass := by rw [← head]
  obtain ⟨state, answer⟩ := run_counting code t.key sweep.shared { sweep.pass with waiting := t :: rest }
  obtain ⟨count, last, numbered⟩ := (code t.key.1 sweep.shared.1).counted_run (same.symm ▸ counted)
  have shared : after.shared.2 = sweep.shared.2 + Exchange.mintedIn asked := by
    simp only [after, asked, dispatch, answer, exchanges_counting]
    exact count
  refine ⟨shared, ?_, ?_⟩
  · have waiting := (Pass.run_frame (code.counting t.key sweep.shared) { sweep.pass with waiting := t :: rest }).1
    refine Pass.Counted.passed ?_ waiting _
    rw [state, shared]
    simp only [asked, exchanges_counting]
    exact count ▸ last
  · simp only [asked, exchanges_counting]
    exact numbered

theorem counted_through (code : TaskCode κ ρ) (uptime : Duration) {tasks : List (Task (κ × Nat))}
    {sweep : Sweep (κ × Nat) (ρ × Nat)} {n : Nat} (start : sweep.shared.2 = n) (counted : sweep.pass.Counted n)
    (ahead : sweep.pass.waiting = tasks) :
    let asked := exchanges code.counting uptime tasks sweep
    (through code.counting uptime tasks sweep).state.pass.Counted (n + Exchange.mintedIn asked) ∧
      Exchange.Counted n asked := by
  have all := through_induction code.counting uptime
    (motive := fun history tasks sweep => sweep.pass.waiting = tasks ∧
      sweep.shared.2 = n + Exchange.mintedIn history ∧ sweep.pass.Counted sweep.shared.2 ∧ Exchange.Counted n history)
    (by
      rintro history t rest sweep early ⟨ahead, count, counted, numbered⟩
      exact ⟨rfl, count, counted.passed ahead none, numbered⟩)
    (by
      rintro history t rest sweep due ⟨ahead, count, counted, numbered⟩
      obtain ⟨shared, after, asked⟩ := counted_dispatch code uptime counted ahead
      refine ⟨rfl, ?_, after, ?_⟩
      · rw [shared, count, Exchange.mintedIn_append, Nat.add_assoc]
      · exact Exchange.counted_append.mpr ⟨numbered, count ▸ asked⟩)
    [] tasks sweep ⟨ahead, start, start.symm ▸ counted, trivial⟩
  rw [List.nil_append] at all
  exact ⟨all.2.1 ▸ all.2.2.1, all.2.2.2⟩

end Sweep

namespace Scheduler

/-- What holds between ticks in a run that has given out `n` handles so far and counts them. -/
structure Counted (n : Nat) (s : Scheduler (κ × Nat) τ) : Prop where
  next : s.nextHandle.After n
  order : Task.InMintOrder n s.tasks

theorem Counted.firstPass {n : Nat} {s : Scheduler (κ × Nat) τ} (counted : s.Counted n) : s.firstPass.Counted n := by
  refine ⟨counted.next, counted.order.of_identity ?_⟩
  have same : s.firstPass.registered.map (·.identity) = s.tasks.map (·.identity) := by
    simp [Pass.registered, Pass.entries, Scheduler.firstPass, begin, aged, Function.comp_def]
  rw [same]

variable [ToString κ]

/-- Carrying out a change brings in no task but one that it adds, behind the others. -/
theorem identity_carryOut_sublist (s : Scheduler κ τ) (c : Change κ) :
    ((s.carryOut c).state.tasks.map (·.identity)).Sublist ((s.tasks ++ c.added?.toList).map (·.identity)) := by
  cases c with
  | add task =>
    simp only [carryOut]
    split
    · exact List.Sublist.refl _
    · exact (List.sublist_append_left s.tasks _).map _
  | retarget handle target =>
    rw [carryOut, tasks_update, identity_restartFirst]
    exact (List.sublist_append_left s.tasks _).map _
  | delete handle =>
    rw [carryOut, tasks_delete]
    exact ((dropFirst_sublist handle s.tasks).trans (List.sublist_append_left s.tasks _)).map _

theorem identity_carryOutAll_sublist (changes : List (Change κ)) (s : Scheduler κ τ) :
    ((carryOutAll changes s).state.tasks.map (·.identity)).Sublist
      ((s.tasks ++ changes.filterMap Change.added?).map (·.identity)) := by
  induction changes generalizing s with
  | nil => simp only [carryOutAll, List.filterMap_nil, List.append_nil, List.Sublist.refl]
  | cons c rest ih =>
    have added : (c :: rest).filterMap Change.added? = c.added?.toList ++ rest.filterMap Change.added? := by
      cases new : c.added? with
      | none => rw [List.filterMap_cons_none new]; rfl
      | some task => rw [List.filterMap_cons_some new]; rfl
    rw [added, ← List.append_assoc, List.map_append]
    refine (ih (s.carryOut c).state).trans ?_
    rw [List.map_append]
    exact (identity_carryOut_sublist s c).append (List.Sublist.refl _)

/-- Neither outcomes nor changes move a task. -/
theorem counted_commit {n : Nat} (s : Scheduler (κ × Nat) τ) {p : Pass (κ × Nat)} (counted : p.Counted n) :
    (s.commit p).state.Counted n := by
  constructor
  · rw [(s.commit_frame p).2]
    exact counted.next
  · refine counted.order.of_identity ((identity_carryOutAll_sublist p.changes _).trans ?_)
    rw [Pass.registered, List.map_append, List.map_append]
    exact (Pass.identity_survivor?_sublist p.entries).append (List.Sublist.refl _)

theorem Counted.registry {n : Nat} {s : Scheduler (κ × Nat) τ} (counted : s.Counted n) (q : Request κ) :
    let e : Exchange (κ × Nat) := ⟨q.relabel (·, n + 1), (registry (q.relabel (·, n + 1)) s).answer⟩
    e.Numbered n ∧ (registry e.1 s).state.Counted (n + e.minted) := by
  intro e
  refine ⟨.of_given fun h given => given_registry given ▸ counted.next, ?_⟩
  have plain {c : Change (κ × Nat)} (other : c.added? = none) : (s.carryOut c).state.Counted n := by
    have kept := identity_carryOut_sublist s c
    rw [other, Option.toList_none, List.append_nil] at kept
    exact ⟨(s.carryOut_frame c).2.symm ▸ counted.next, counted.order.of_identity kept⟩
  cases q with
  | add key target visibility =>
    by_cases vacant : s.tasks.length < s.capacity
    · simp only [e, Request.relabel, Scheduler.registry, Scheduler.add, vacant, ↓reduceIte]
      exact ⟨counted.next.next, counted.order.add rfl counted.next⟩
    · simp only [e, Request.relabel, Scheduler.registry, Scheduler.add, vacant, ↓reduceIte]
      exact counted
  | update handle target => exact plain (c := .retarget handle target) rfl
  | delete handle => exact plain (c := .delete handle) rfl
  | contains handle => exact counted
  | idleTime => exact counted

variable [TickTimer τ]

/-- Every action that counts handles keeps the count. -/
theorem Counted.act {n : Nat} {s : Scheduler (κ × Nat) τ} (counted : s.Counted n) (a : Action κ) :
    (s.act (a.counting n)).Counted (n + Exchange.mintedIn (s.exchanges (a.counting n))) ∧
      Exchange.Counted n (s.exchanges (a.counting n)) := by
  cases a with
  | start period =>
    obtain ⟨tasks, -, nextHandle⟩ := s.start_frame period
    exact ⟨⟨nextHandle.symm ▸ counted.next, tasks.symm ▸ counted.order⟩, trivial⟩
  | stop => exact ⟨⟨counted.next, counted.order⟩, trivial⟩
  | ask q =>
    obtain ⟨numbered, after⟩ := counted.registry q
    exact ⟨after, numbered, trivial⟩
  | tick code shared =>
    by_cases active : s.active
    · have start : (s.firstSweep (shared, n)).shared.2 = n := rfl
      obtain ⟨last, numbered⟩ := Sweep.counted_through code (s.uptime + s.period) start counted.firstPass rfl
      simp only [Action.counting, Scheduler.act, exchanges, active, ↓reduceIte, (s.tick_active active _ _).1]
      exact ⟨counted_commit _ last, numbered⟩
    · have stopped : s.active = false := by simpa using active
      simp only [Action.counting, Scheduler.act, exchanges, stopped, Bool.false_eq_true, ↓reduceIte,
        (s.tick_stopped stopped _ _).1]
      exact ⟨counted, trivial⟩

/-- A run that counts handles keeps the count. -/
theorem Counted.run {n : Nat} {s : Scheduler (κ × Nat) τ} (counted : s.Counted n) (actions : List (Action κ)) :
    let numbered := (s.relabel Prod.fst).counting n actions
    (s.run numbered).Counted (n + Exchange.mintedIn (s.history numbered)) ∧ Exchange.Counted n (s.history numbered) := by
  induction actions generalizing s n with
  | nil => exact ⟨counted, trivial⟩
  | cons a rest ih =>
    obtain ⟨state, asked⟩ := s.act_counting n a
    obtain ⟨after, here⟩ := counted.act a
    have minted : Exchange.mintedIn ((s.relabel Prod.fst).exchanges a) =
        Exchange.mintedIn (s.exchanges (a.counting n)) := by
      rw [← asked, Exchange.mintedIn_relabel]
    obtain ⟨last, later⟩ := ih after
    rw [state, ← minted] at last later
    simp only [Scheduler.counting, history, Exchange.mintedIn_append, ← Nat.add_assoc, ← minted]
    refine ⟨last, Exchange.counted_append.mpr ⟨here, ?_⟩⟩
    rw [← minted]
    exact later

/-- Handles are unique and ordered, also after their numbers have started over. In any run from an empty
registry let every task be registered under its key and the number of its handle, counting from one all
the handles given out, the unused ones among them; nothing else changes by that. Then the `n`-th handle is
given by its number, and is the next one to be given out when `n - 1` have been, in a tick and between
ticks. The tasks stand in the order of their numbers. So two tasks share a handle exactly where their
numbers differ by a multiple of how many handles there are, and none do while the newest task is less than
that many handles past the oldest. -/
theorem handles_in_mint_order (capacity : Nat) (timer : τ) (actions : List (Action κ)) :
    let fresh : Scheduler κ τ := empty capacity timer
    let s := fresh.run actions
    let minted := Exchange.mintedIn (fresh.history actions)
    let first : Scheduler (κ × Nat) τ := empty capacity timer
    let counted := first.run (fresh.counting 0 actions)
    let history := first.history (fresh.counting 0 actions)
    (counted.relabel Prod.fst = s ∧ history.map (Exchange.relabel Prod.fst) = fresh.history actions) ∧
    (∀ earlier e later, history = earlier ++ e :: later →
      (∀ key target visibility, e.1 = .add key target visibility → key.2 = Exchange.mintedIn earlier + 1) ∧
      ∀ handle, e.given? = some handle → handle.id.toNat = Exchange.mintedIn earlier % Handle.numbers + 1) ∧
    (s.nextHandle.id.toNat = minted % Handle.numbers + 1 ∧
      ∀ (during : List (Exchange κ)) (p : Pass κ), s.firstPass.Underway during p →
        p.nextHandle.id.toNat = (minted + Exchange.mintedIn during) % Handle.numbers + 1) ∧
    counted.tasks.Pairwise (fun t u => t.key.2 < u.key.2) ∧
    (∀ t ∈ counted.tasks, 1 ≤ t.key.2 ∧ t.key.2 ≤ minted ∧
      t.handle.id.toNat = (t.key.2 - 1) % Handle.numbers + 1) ∧
    (∀ t ∈ counted.tasks, ∀ u ∈ counted.tasks,
      t.handle = u.handle ↔ (Handle.numbers : Int) ∣ (t.key.2 : Int) - u.key.2) ∧
    ∀ oldest newest, counted.tasks.head? = some oldest → counted.tasks.getLast? = some newest →
      newest.key.2 < oldest.key.2 + Handle.numbers → (s.tasks.map (·.handle)).Nodup := by
  intro fresh s minted first counted history
  obtain ⟨state, asked⟩ := first.run_counting 0 actions
  have start : first.Counted 0 := ⟨rfl, .nil⟩
  obtain ⟨known, numbered⟩ := start.run actions
  have count : Exchange.mintedIn history = minted := by
    rw [← Exchange.mintedIn_relabel (f := Prod.fst) history]
    exact congrArg Exchange.mintedIn asked
  have last : counted.Counted minted := by
    rw [← count, ← Nat.zero_add (Exchange.mintedIn history)]
    exact known
  have next : s.nextHandle.After minted := by
    rw [show s = counted.relabel Prod.fst from state.symm]
    exact last.next
  refine ⟨⟨state, asked⟩, ?_, ⟨next, ?_⟩, last.order.ordered, ?_, ?_, ?_⟩
  · intro earlier e later split
    have parts : Exchange.Counted 0 history := numbered
    rw [split, Exchange.counted_append, Nat.zero_add] at parts
    exact ⟨parts.2.1.number, parts.2.1.handle⟩
  · intro during p run
    exact Pass.next_underway next run
  · intro t member
    obtain ⟨earlier, bound, number, after⟩ := last.order.numbered t member
    rw [number]
    exact ⟨Nat.succ_pos earlier, bound, after⟩
  · intro t one u other
    exact last.order.handle_eq_iff one other
  · intro oldest newest oldestFirst newestLast close
    have same : s.tasks.map (·.handle) = counted.tasks.map (·.handle) := by
      rw [show s = counted.relabel Prod.fst from state.symm]
      simp [relabel, Function.comp_def]
    rw [same]
    exact last.order.nodup oldestFirst newestLast close

/-- Registers so many tasks. -/
def flood : Nat → Script Nat Unit
  | 0 => return ()
  | n + 1 => do
    let _ ← Program.add 1 (.ofSeconds 1) .visible
    flood n

/-- A task that registers one task more than fits into a tick. -/
def flooding : TaskCode Nat Unit
  | 0, _ => do
    flood 17
    return (.ok .remove, ())
  | _, _ => return (.ok .remove, ())

def flooded : List (Action Nat) :=
  [.start (.ofMillis 10), .ask (.add 0 .zero .visible), .tick flooding (), .ask (.add 2 .zero .visible)]

/-- The request that did not fit used up the handle with the number eighteen. -/
theorem handles_in_mint_order_flooded :
    let fresh : Scheduler Nat ManualTimer := empty 20 .stopped
    let s := fresh.run flooded
    let first : Scheduler (Nat × Nat) ManualTimer := empty 20 .stopped
    let counted := first.run (fresh.counting 0 flooded)
    let oldest : Task (Nat × Nat) := .fresh ⟨2⟩ (1, 2) (.ofSeconds 1) .visible
    let newest : Task (Nat × Nat) := .fresh ⟨19⟩ (2, 19) .zero .visible
    counted.tasks.map (·.key.2) = List.range' 2 16 ++ [19] ∧
      (first.history (fresh.counting 0 flooded)).map Exchange.minted = List.replicate 19 1 ∧
      s.firstPass.nextHandle.id.toNat = 20 ∧ newest.handle.id.toNat = (19 - 1) % Handle.numbers + 1 ∧
      ¬ (Handle.numbers : Int) ∣ (oldest.key.2 : Int) - newest.key.2 ∧ (s.tasks.map (·.handle)).Nodup := by
  intro fresh s first counted oldest newest
  obtain ⟨-, -, ⟨-, during⟩, -, numbered, shared, distinct⟩ := handles_in_mint_order (κ := Nat) 20 ManualTimer.stopped flooded
  have head : counted.tasks.head? = some oldest := by decide +kernel
  have last : counted.tasks.getLast? = some newest := by decide +kernel
  have one : oldest ∈ counted.tasks := List.mem_of_head? head
  have other : newest ∈ counted.tasks := List.mem_of_getLast? last
  have minted : Exchange.mintedIn (fresh.history flooded) = 19 := by decide +kernel
  have next := during [] s.firstPass .begun
  rw [minted] at next
  refine ⟨by decide +kernel, by decide +kernel, next, (numbered newest other).2.2, ?_, ?_⟩
  · exact fun apart => absurd ((shared oldest one newest other).mpr apart) (by decide)
  · exact distinct oldest newest head last (by decide)

end Scheduler
end ConferenceBadge
