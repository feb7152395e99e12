import ConferenceBadge.Scheduler.Tick

/-!
Runs of a scheduler: whatever can happen to it, one action after the other, and the requests that
were answered on the way. A tick is a run of its own over passes (`Pass.Underway`), and the sweep of
every tick is such a run (`underway_swept`). What each step of a sweep keeps, the sweep keeps
(`Sweep.through_induction`).
-/
namespace ConferenceBadge

/-- A request with the answer that it got. -/
abbrev Exchange (κ : Type) : Type := (request : Request κ) × request.Answer

namespace Exchange

variable {κ : Type}

/-- How many handles were given out with an answer: one for a task that was registered, and one
where a tick in progress could not hold the change. -/
def minted : Exchange κ → Nat
  | ⟨.add .., .ok _⟩ => 1
  | ⟨.add .., .error .changesetFull⟩ => 1
  | _ => 0

/-- How many handles were given out with the answers of a history. -/
def mintedIn : List (Exchange κ) → Nat
  | [] => 0
  | e :: rest => e.minted + mintedIn rest

@[simp] theorem mintedIn_nil : mintedIn ([] : List (Exchange κ)) = 0 := rfl

@[simp] theorem mintedIn_singleton (e : Exchange κ) : mintedIn [e] = e.minted := rfl

@[simp] theorem mintedIn_append (earlier later : List (Exchange κ)) :
    mintedIn (earlier ++ later) = mintedIn earlier + mintedIn later := by
  induction earlier with
  | nil => rw [List.nil_append, mintedIn_nil, Nat.zero_add]
  | cons e rest ih => rw [List.cons_append, mintedIn, mintedIn, ih, Nat.add_assoc]

end Exchange

namespace Handle

/-- How many handles there are: zero is never given out. -/
def numbers : Nat := 4294967295

theorem toNat_next {h : Handle} (below : h.id.toNat < numbers) : h.next.id.toNat = h.id.toNat + 1 := by
  have grown : (h.id + 1).toNat = h.id.toNat + 1 := by
    rw [UInt32.toNat_add]
    simp only [numbers] at below
    exact Nat.mod_eq_of_lt (by simp; omega)
  have positive : h.id + 1 ≠ 0 := by
    intro wrapped
    rw [wrapped] at grown
    simp at grown
  simp only [next, positive, ↓reduceIte, grown]

end Handle

namespace Script

variable {κ σ α : Type}

/-- What a script asks and is answered, in order. -/
def exchanges (registry : Registry κ σ) : Script κ α → σ → List (Exchange κ)
  | .done _, _ => []
  | .ask q next, s =>
    ⟨q, (registry q s).answer⟩ :: exchanges registry (next (registry q s).answer) (registry q s).state
  | .call c _, _ => Empty.elim c
  | .note _ next, s => exchanges registry next s

theorem run_ask (registry : Registry κ σ) (q : Request κ) (next : q.Answer → Script κ α) (s : σ) :
    (run registry (.ask q next) s).state =
      (run registry (next (registry q s).answer) (registry q s).state).state := rfl

theorem answer_ask (registry : Registry κ σ) (q : Request κ) (next : q.Answer → Script κ α) (s : σ) :
    (run registry (.ask q next) s).answer =
      (run registry (next (registry q s).answer) (registry q s).state).answer := rfl

theorem run_note (registry : Registry κ σ) (line : Log.Line) (next : Script κ α) (s : σ) :
    (run registry (.note line next) s).state = (run registry next s).state := rfl

/-- A script whose last step makes something of its answer. -/
theorem answer_map {β : Type} (registry : Registry κ σ) (p : Script κ α) (f : α → β) (s : σ) :
    (Script.run registry (p >>= fun a => return f a) s).answer = f (p.run registry s).answer :=
  congrArg Reply.answer (run_bind registry p (fun a => .done (f a)) s)

theorem exchanges_bind {β : Type} (registry : Registry κ σ) (p : Script κ α) (f : α → Script κ β) (s : σ) :
    (p >>= f : Script κ β).exchanges registry s =
      p.exchanges registry s ++ (f (p.run registry s).answer).exchanges registry (p.run registry s).state := by
  show Script.exchanges registry (p.bind f) s = _
  induction p generalizing s with
  | done a => rfl
  | ask q next ih => exact congrArg (_ :: ·) (ih _ _)
  | call c next ih => exact Empty.elim c
  | note line next ih => exact ih s

/-- What every request keeps, a script keeps. -/
theorem run_induction {registry : Registry κ σ} {motive : List (Exchange κ) → σ → Prop}
    (asked : ∀ history s q, motive history s →
      motive (history ++ [⟨q, (registry q s).answer⟩]) (registry q s).state)
    (script : Script κ α) (history : List (Exchange κ)) (s : σ) (before : motive history s) :
    motive (history ++ script.exchanges registry s) (script.run registry s).state := by
  induction script generalizing history s with
  | done a => simpa only [exchanges, List.append_nil] using! before
  | ask q next ih =>
    rw [run_ask, exchanges, List.append_cons]
    exact ih _ _ _ (asked history s q before)
  | call c next ih => exact Empty.elim c
  | note line next ih =>
    rw [run_note, exchanges]
    exact ih _ _ before

end Script

namespace Sweep

variable {κ ρ : Type} [ToString κ]

/-- What the tasks of a tick ask and are answered, in order. -/
def exchanges (code : TaskCode κ ρ) (uptime : Duration) : List (Task κ) → Sweep κ ρ → List (Exchange κ)
  | [], _ => []
  | t :: rest, sweep =>
    if t.isDue then
      (code t.key sweep.shared).exchanges Pass.registry { sweep.pass with waiting := t :: rest } ++
        exchanges code uptime rest (sweep.dispatch code uptime t rest).state
    else exchanges code uptime rest (sweep.skip t rest)

/-- What the tasks of a tick are run for, in order, each with the common state that it finds. -/
def dispatched (code : TaskCode κ ρ) (uptime : Duration) : List (Task κ) → Sweep κ ρ → List (κ × ρ)
  | [], _ => []
  | t :: rest, sweep =>
    if t.isDue then (t.key, sweep.shared) :: dispatched code uptime rest (sweep.dispatch code uptime t rest).state
    else dispatched code uptime rest (sweep.skip t rest)

/-- What every task keeps of their common state, each of them finds. -/
theorem dispatched_kept {code : TaskCode κ ρ} {uptime : Duration} {motive : ρ → Prop}
    (ran : ∀ key shared (p : Pass κ), motive shared → motive ((code key shared).run Pass.registry p).answer.2)
    (tasks : List (Task κ)) (sweep : Sweep κ ρ) (before : motive sweep.shared) :
    ∀ run ∈ dispatched code uptime tasks sweep, motive run.2 := by
  induction tasks generalizing sweep with
  | nil => exact fun run none => absurd none List.not_mem_nil
  | cons t rest ih =>
    rw [dispatched]
    split
    · exact List.forall_mem_cons.mpr ⟨before, ih _ (ran _ _ _ before)⟩
    · exact ih _ before

/-- What every step of a sweep keeps, the sweep keeps. -/
theorem through_induction (code : TaskCode κ ρ) (uptime : Duration)
    {motive : List (Exchange κ) → List (Task κ) → Sweep κ ρ → Prop}
    (skipped : ∀ history t rest sweep, t.isDue = false → motive history (t :: rest) sweep →
      motive history rest (sweep.skip t rest))
    (dispatched : ∀ history t rest sweep, t.isDue = true → motive history (t :: rest) sweep →
      motive (history ++ (code t.key sweep.shared).exchanges Pass.registry { sweep.pass with waiting := t :: rest })
        rest (sweep.dispatch code uptime t rest).state)
    (history : List (Exchange κ)) (tasks : List (Task κ)) (sweep : Sweep κ ρ)
    (before : motive history tasks sweep) :
    motive (history ++ exchanges code uptime tasks sweep) [] (through code uptime tasks sweep).state := by
  induction tasks generalizing history sweep with
  | nil => simpa only [exchanges, through, List.append_nil] using before
  | cons t rest ih =>
    simp only [exchanges, through]
    by_cases due : t.isDue
    · simp only [due, ↓reduceIte, ← List.append_assoc]
      exact ih _ _ (dispatched history t rest sweep due before)
    · simp only [due, Bool.false_eq_true, ↓reduceIte]
      exact ih _ _ (skipped history t rest sweep (by simpa using due) before)

end Sweep

namespace Pass

variable {κ ρ : Type} [ToString κ]

/-- The passes that a tick can come to from its first one, whatever its tasks ask for and however
they end, with what was asked and answered on the way. -/
inductive Underway (first : Pass κ) : List (Exchange κ) → Pass κ → Prop
  | begun : Underway first [] first
  | asked {history : List (Exchange κ)} {p : Pass κ} (q : Request κ) (earlier : Underway first history p) :
      Underway first (history ++ [⟨q, (registry q p).answer⟩]) (registry q p).state
  | skipped {history : List (Exchange κ)} {p : Pass κ} {t : Task κ} {rest : List (Task κ)}
      (earlier : Underway first history p) (head : p.waiting = t :: rest) (early : t.isDue = false) :
      Underway first history (p.passed ⟨t, none⟩ rest)
  | settled {history : List (Exchange κ)} {p : Pass κ} {t : Task κ} {rest : List (Task κ)}
      (settlement : Settlement) (earlier : Underway first history p) (head : p.waiting = t :: rest)
      (due : t.isDue = true) : Underway first history (p.passed ⟨t, some settlement⟩ rest)

/-- What a request leaves alone. -/
theorem registry_frame (q : Request κ) (p : Pass κ) :
    (registry q p).state.waiting = p.waiting ∧ (registry q p).state.visited = p.visited ∧
      (registry q p).state.capacity = p.capacity := by
  cases q with
  | add key target visibility =>
    simp only [registry, add]
    split
    · split <;> exact ⟨rfl, rfl, rfl⟩
    · exact ⟨rfl, rfl, rfl⟩
  | update handle target =>
    simp only [registry, enqueueFor]
    split
    · split <;> exact ⟨rfl, rfl, rfl⟩
    · exact ⟨rfl, rfl, rfl⟩
  | delete handle =>
    simp only [registry, enqueueFor]
    split
    · split <;> exact ⟨rfl, rfl, rfl⟩
    · exact ⟨rfl, rfl, rfl⟩
  | contains handle => exact ⟨rfl, rfl, rfl⟩
  | idleTime => exact ⟨rfl, rfl, rfl⟩

/-- A request queues one change or none, and a task that is to be added starts to wait. -/
theorem changes_registry (q : Request κ) (p : Pass κ) :
    (registry q p).state.changes = p.changes ∨
      ∃ c, (registry q p).state.changes = p.changes ++ [c] ∧ ∀ task, c = .add task → task.position = .zero := by
  cases q with
  | add key target visibility =>
    simp only [registry, add]
    split
    · split
      · refine .inr ⟨_, rfl, ?_⟩
        rintro task same
        obtain rfl := Change.add.inj same
        rfl
      · exact .inl rfl
    · exact .inl rfl
  | update handle target =>
    simp only [registry, enqueueFor]
    split
    · split
      · exact .inr ⟨_, rfl, by rintro task ⟨⟩⟩
      · exact .inl rfl
    · exact .inl rfl
  | delete handle =>
    simp only [registry, enqueueFor]
    split
    · split
      · exact .inr ⟨_, rfl, by rintro task ⟨⟩⟩
      · exact .inl rfl
    · exact .inl rfl
  | contains handle => exact .inl rfl
  | idleTime => exact .inl rfl

theorem run_frame {α : Type} (script : Script κ α) (p : Pass κ) :
    (script.run registry p).state.waiting = p.waiting ∧ (script.run registry p).state.visited = p.visited ∧
      (script.run registry p).state.capacity = p.capacity :=
  Script.run_induction
    (motive := fun _ (q : Pass κ) =>
      q.waiting = p.waiting ∧ q.visited = p.visited ∧ q.capacity = p.capacity)
    (fun _ s q before => by
      obtain ⟨waiting, visited, capacity⟩ := registry_frame q s
      exact ⟨waiting.trans before.1, visited.trans before.2.1, capacity.trans before.2.2⟩)
    script [] p ⟨rfl, rfl, rfl⟩

theorem underway_run {first p : Pass κ} {history : List (Exchange κ)} {α : Type} (script : Script κ α)
    (before : Underway first history p) :
    Underway first (history ++ script.exchanges registry p) (script.run registry p).state :=
  Script.run_induction (motive := Underway first) (fun _ _ q earlier => earlier.asked q) script _ _ before

/-- A sweep is a run of requests and settlements. -/
theorem underway_through {first : Pass κ} (code : TaskCode κ ρ) (uptime : Duration) {tasks : List (Task κ)}
    {history : List (Exchange κ)} (sweep : Sweep κ ρ) (before : Underway first history sweep.pass)
    (ahead : sweep.pass.waiting = tasks) :
    Underway first (history ++ Sweep.exchanges code uptime tasks sweep)
        (Sweep.through code uptime tasks sweep).state.pass ∧
      (Sweep.through code uptime tasks sweep).state.pass.waiting = [] := by
  refine Sweep.through_induction code uptime
    (motive := fun history tasks sweep => Underway first history sweep.pass ∧ sweep.pass.waiting = tasks)
    ?_ ?_ history tasks sweep ⟨before, ahead⟩
  · rintro history t rest sweep early ⟨before, ahead⟩
    exact ⟨before.skipped ahead early, rfl⟩
  · rintro history t rest sweep due ⟨before, ahead⟩
    refine ⟨Underway.settled _ ?_ ?_ due, rfl⟩
    · have same : { sweep.pass with waiting := t :: rest } = sweep.pass := by rw [← ahead]
      rw [same]
      exact underway_run _ before
    · exact (run_frame _ _).1

end Pass

/-- What can happen to a scheduler: ticks may run any code on any state. -/
inductive Action (κ : Type) : Type 1 where
  | start (period : Duration)
  | stop
  | ask (request : Request κ)
  | tick {ρ : Type} (code : TaskCode κ ρ) (shared : ρ)

namespace Scheduler

variable {κ τ ρ : Type}

theorem restartFirst_absent {handle : Handle} {tasks : List (Task κ)} (absent : handle ∉ tasks.map (·.handle))
    (target : Duration) : restartFirst handle target tasks = tasks := by
  induction tasks with
  | nil => rfl
  | cons t rest ih =>
    rw [List.map_cons, List.mem_cons, not_or] at absent
    rw [restartFirst, if_neg (Ne.symm absent.1), ih absent.2]

theorem dropFirst_absent {handle : Handle} {tasks : List (Task κ)} (absent : handle ∉ tasks.map (·.handle)) :
    dropFirst handle tasks = tasks := by
  apply List.eraseP_of_forall_not
  intro t member same
  exact absent (List.mem_map.mpr ⟨t, member, of_decide_eq_true same⟩)

/-- Starting the ticks touches the timer only. -/
theorem start_frame [TickTimer τ] (s : Scheduler κ τ) (period : Duration) :
    (s.start period).state.tasks = s.tasks ∧ (s.start period).state.capacity = s.capacity ∧
      (s.start period).state.nextHandle = s.nextHandle := by
  simp only [start]
  split <;> exact ⟨rfl, rfl, rfl⟩

theorem tasks_update (s : Scheduler κ τ) (handle : Handle) (target : Duration) :
    (s.update handle target).state.tasks = restartFirst handle target s.tasks := by
  rw [update]
  split
  · rfl
  · next absent => exact (restartFirst_absent (fun member => absent (contains_iff.mpr member)) target).symm

variable [ToString κ]

theorem tasks_delete (s : Scheduler κ τ) (handle : Handle) :
    (s.delete handle).state.tasks = dropFirst handle s.tasks := by
  rw [delete]
  split
  · rfl
  · next missing =>
    have absent : handle ∉ s.tasks.map (·.handle) := fun member => by
      have there := contains_iff.mpr member
      rw [contains, missing] at there
      contradiction
    exact (dropFirst_absent absent).symm

/-- Carrying out a change touches the tasks and the events only. -/
theorem carryOut_frame (s : Scheduler κ τ) (c : Change κ) :
    (s.carryOut c).state.capacity = s.capacity ∧ (s.carryOut c).state.nextHandle = s.nextHandle := by
  cases c with
  | add task =>
    simp only [carryOut]
    split <;> exact ⟨rfl, rfl⟩
  | retarget handle target =>
    simp only [carryOut, update]
    split <;> exact ⟨rfl, rfl⟩
  | delete handle =>
    simp only [carryOut, delete]
    split <;> exact ⟨rfl, rfl⟩

theorem carryOutAll_append (earlier later : List (Change κ)) (s : Scheduler κ τ) :
    (carryOutAll (earlier ++ later) s).state = (carryOutAll later (carryOutAll earlier s).state).state := by
  induction earlier generalizing s with
  | nil => rfl
  | cons c rest ih => exact ih _

theorem carryOutAll_frame (changes : List (Change κ)) (s : Scheduler κ τ) :
    (carryOutAll changes s).state.capacity = s.capacity ∧
      (carryOutAll changes s).state.nextHandle = s.nextHandle := by
  induction changes generalizing s with
  | nil => exact ⟨rfl, rfl⟩
  | cons c rest ih =>
    obtain ⟨capacity, nextHandle⟩ := carryOut_frame s c
    exact ⟨(ih _).1.trans capacity, (ih _).2.trans nextHandle⟩

/-- The tasks one period later. -/
def aged (s : Scheduler κ τ) : List (Task κ) := s.tasks.map (·.aged s.period)

/-- The first pass of a tick. -/
def firstPass (s : Scheduler κ τ) : Pass κ := s.begin s.aged

/-- What the tasks of a tick leave, before outcomes and changes take effect. -/
def swept (s : Scheduler κ τ) (code : TaskCode κ ρ) (shared : ρ) : Reply (Sweep κ ρ) Unit :=
  Sweep.through code (s.uptime + s.period) s.aged
    { pass := s.firstPass, events := s.events, tally := .none, shared }

/-- What the tasks of a tick ask and are answered. -/
def tickExchanges (s : Scheduler κ τ) (code : TaskCode κ ρ) (shared : ρ) : List (Exchange κ) :=
  Sweep.exchanges code (s.uptime + s.period) s.aged
    { pass := s.firstPass, events := s.events, tally := .none, shared }

/-- A tick of a running scheduler commits what its tasks left. -/
theorem tick_active (s : Scheduler κ τ) (active : s.active = true) (code : TaskCode κ ρ) (shared : ρ) :
    (s.tick code shared).state =
      (({ s with uptime := s.uptime + s.period, events := (s.swept code shared).state.events }.commit
        (s.swept code shared).state.pass).state, (s.swept code shared).state.shared) ∧
    (s.tick code shared).answer = (s.swept code shared).state.tally := by
  simp only [tick, active, ↓reduceIte]
  exact ⟨rfl, rfl⟩

theorem tick_stopped (s : Scheduler κ τ) (stopped : s.active = false) (code : TaskCode κ ρ) (shared : ρ) :
    (s.tick code shared).state = (s, shared) ∧ (s.tick code shared).answer = .none := by
  simp only [tick, stopped, Bool.false_eq_true, ↓reduceIte, and_self]

/-- What every task keeps of their common state, a tick keeps. -/
theorem shared_tick {code : TaskCode κ ρ} {motive : ρ → Prop}
    (ran : ∀ key shared (p : Pass κ), motive shared → motive ((code key shared).run Pass.registry p).answer.2)
    (s : Scheduler κ τ) {shared : ρ} (before : motive shared) : motive (s.tick code shared).state.2 := by
  cases active : s.active with
  | false =>
    rw [(s.tick_stopped active code shared).1]
    exact before
  | true =>
    rw [(s.tick_active active code shared).1]
    exact Sweep.through_induction code (s.uptime + s.period) (motive := fun _ _ sweep => motive sweep.shared)
      (fun _ _ _ _ _ before => before) (fun _ _ _ _ _ before => ran _ _ _ before) []
      s.aged { pass := s.firstPass, events := s.events, tally := .none, shared } before

/-- What a tick runs, in order, each task with the common state that it finds. -/
def dispatched (s : Scheduler κ τ) (code : TaskCode κ ρ) (shared : ρ) : List (κ × ρ) :=
  if s.active then
    Sweep.dispatched code (s.uptime + s.period) s.aged
      { pass := s.firstPass, events := s.events, tally := .none, shared }
  else []

theorem dispatched_kept {code : TaskCode κ ρ} {motive : ρ → Prop}
    (ran : ∀ key shared (p : Pass κ), motive shared → motive ((code key shared).run Pass.registry p).answer.2)
    (s : Scheduler κ τ) {shared : ρ} (before : motive shared) : ∀ run ∈ s.dispatched code shared, motive run.2 := by
  unfold dispatched
  split
  · exact Sweep.dispatched_kept ran s.aged _ before
  · exact fun run none => absurd none List.not_mem_nil

/-- The sweep of a tick is a run over passes, at the end of which no task waits. -/
theorem underway_swept (s : Scheduler κ τ) (code : TaskCode κ ρ) (shared : ρ) :
    s.firstPass.Underway (s.tickExchanges code shared) (s.swept code shared).state.pass ∧
      (s.swept code shared).state.pass.waiting = [] := by
  have run := Pass.underway_through code (s.uptime + s.period)
    { pass := s.firstPass, events := s.events, tally := .none, shared } Pass.Underway.begun rfl
  exact run

variable [TickTimer τ]

/-- The scheduler after an action. -/
def act (s : Scheduler κ τ) : Action κ → Scheduler κ τ
  | .start period => (s.start period).state
  | .stop => s.stop.state
  | .ask q => (registry q s).state
  | .tick code shared => (s.tick code shared).state.1

/-- What was asked and answered in an action. -/
def exchanges (s : Scheduler κ τ) : Action κ → List (Exchange κ)
  | .start _ | .stop => []
  | .ask q => [⟨q, (registry q s).answer⟩]
  | .tick code shared => if s.active then s.tickExchanges code shared else []

/-- The scheduler after actions, one after the other. -/
def run (s : Scheduler κ τ) (actions : List (Action κ)) : Scheduler κ τ := actions.foldl act s

/-- What was asked and answered in a run. -/
def history : Scheduler κ τ → List (Action κ) → List (Exchange κ)
  | _, [] => []
  | s, a :: rest => s.exchanges a ++ (s.act a).history rest

theorem run_append (s : Scheduler κ τ) (earlier later : List (Action κ)) :
    s.run (earlier ++ later) = (s.run earlier).run later := List.foldl_append

theorem history_append (s : Scheduler κ τ) (earlier later : List (Action κ)) :
    s.history (earlier ++ later) = s.history earlier ++ (s.run earlier).history later := by
  induction earlier generalizing s with
  | nil => rfl
  | cons a rest ih =>
    simp only [List.cons_append, history, ih, List.append_assoc]
    rfl

/-- What every action keeps, a run keeps. -/
theorem run_induction {motive : List (Exchange κ) → Scheduler κ τ → Prop}
    (acted : ∀ history s a, motive history s → motive (history ++ s.exchanges a) (s.act a))
    (actions : List (Action κ)) (history : List (Exchange κ)) (s : Scheduler κ τ)
    (before : motive history s) : motive (history ++ s.history actions) (s.run actions) := by
  induction actions generalizing history s with
  | nil => simpa only [Scheduler.history, List.append_nil] using! before
  | cons a rest ih =>
    rw [Scheduler.history, ← List.append_assoc]
    exact ih _ _ (acted history s a before)

end Scheduler
end ConferenceBadge
