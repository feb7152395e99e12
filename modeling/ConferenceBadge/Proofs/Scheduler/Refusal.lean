import ConferenceBadge.Proofs.Scheduler.Queue
import Mathlib.Logic.Function.Iterate

/-!
Requests that are turned down. Between ticks such a request leaves the scheduler as it was. In the middle
of a tick it leaves the view and the queue, and the rest of the tick goes as if it had not been made
(`Scheduler.resumed`). At most a handle is passed over, and no later answer of the tick shows that: the
queue is full by then, so that no task is registered any more (`Pass.registry_skipHandles`).
-/
namespace ConferenceBadge

variable {κ τ ρ α : Type}

namespace Exchange

/-- A request that was turned down. -/
def Refused : Exchange κ → Prop
  | ⟨.add .., .error _⟩ => True
  | ⟨.update .., granted⟩ | ⟨.delete _, granted⟩ => granted = false
  | _ => False

instance : DecidablePred (Refused : Exchange κ → Prop)
  | ⟨.add .., .error _⟩ => isTrue trivial
  | ⟨.update .., granted⟩ | ⟨.delete _, granted⟩ => inferInstanceAs (Decidable (granted = false))
  | ⟨.add .., .ok _⟩ | ⟨.contains _, _⟩ | ⟨.idleTime, _⟩ => isFalse id

end Exchange

/-- A script about to ask a pass: the request, and how the script goes on once it is answered. -/
structure Asking (κ α : Type) where
  request : Request κ
  next : request.Answer → Script κ α
  pass : Pass κ

/-- A tick whose running task is about to ask. -/
structure Sweep.Asking (κ ρ : Type) where
  /-- the tick when the task began to run -/
  sweep : Sweep κ ρ
  task : Task κ
  /-- the tasks after it -/
  rest : List (Task κ)
  asking : ConferenceBadge.Asking κ (Except Fault Outcome × ρ)

namespace Sweep

/-- The sweep once a task has run; `rest` are the tasks after it. -/
def settled (uptime : Duration) (sweep : Sweep κ ρ) (t : Task κ) (rest : List (Task κ))
    (ran : Reply (Pass κ) (Except Fault Outcome × ρ)) : Sweep κ ρ :=
  { pass := ran.state.passed ⟨t, some (Settlement.ofRun ran.answer.1)⟩ rest
    events := (event? t ran.answer.1).elim sweep.events (sweep.events.record uptime)
    tally := sweep.tally.counting (.ofRun ran.answer.1)
    shared := ran.answer.2 }

end Sweep

section

variable [ToString κ]

namespace Asking

/-- What the pass answers. -/
def reply (a : Asking κ α) : Reply (Pass κ) a.request.Answer := Pass.registry a.request a.pass

/-- The request with its answer. -/
def exchange (a : Asking κ α) : Exchange κ := ⟨a.request, a.reply.answer⟩

/-- How the script ends once it is answered, where it goes on with some pass. -/
def resumed (a : Asking κ α) (p : Pass κ) : Reply (Pass κ) α := (a.next a.reply.answer).run Pass.registry p

end Asking

namespace Script

/-- Each request of a script when it is about to be made. -/
def askings : Script κ α → Pass κ → List (Asking κ α)
  | .done _, _ => []
  | .ask q next, p => ⟨q, next, p⟩ :: askings (next (Pass.registry q p).answer) (Pass.registry q p).state
  | .call c _, _ => Empty.elim c
  | .note _ next, p => askings next p

theorem exchanges_askings (script : Script κ α) (p : Pass κ) :
    (script.askings p).map (·.exchange) = script.exchanges Pass.registry p := by
  induction script generalizing p with
  | done a => rfl
  | ask q next ih => exact congrArg (_ :: ·) (ih _ _)
  | call c next ih => exact Empty.elim c
  | note line next ih => exact ih p

/-- A script goes on with the pass that its request left. -/
theorem resumed_askings {script : Script κ α} {p : Pass κ} {a : Asking κ α} (here : a ∈ script.askings p) :
    (a.resumed a.reply.state).state = (script.run Pass.registry p).state ∧
      (a.resumed a.reply.state).answer = (script.run Pass.registry p).answer := by
  induction script generalizing p with
  | done result => exact absurd here List.not_mem_nil
  | ask q next ih =>
    rw [run_ask, answer_ask]
    rcases List.mem_cons.mp here with rfl | later
    · exact ⟨rfl, rfl⟩
    · exact ih _ later
  | call c next ih => exact Empty.elim c
  | note line next ih => exact ih here

end Script

namespace Sweep

theorem state_dispatch (code : TaskCode κ ρ) (uptime : Duration) (sweep : Sweep κ ρ) (t : Task κ)
    (rest : List (Task κ)) : (sweep.dispatch code uptime t rest).state = sweep.settled uptime t rest
      ((code t.key sweep.shared).run Pass.registry { sweep.pass with waiting := t :: rest }) := rfl

/-- Each request of a tick when it is about to be made. -/
def askings (code : TaskCode κ ρ) (uptime : Duration) : List (Task κ) → Sweep κ ρ → List (Sweep.Asking κ ρ)
  | [], _ => []
  | t :: rest, sweep =>
    if t.isDue then
      ((code t.key sweep.shared).askings { sweep.pass with waiting := t :: rest }).map (⟨sweep, t, rest, ·⟩) ++
        askings code uptime rest (sweep.dispatch code uptime t rest).state
    else askings code uptime rest (sweep.skip t rest)

/-- The sweep at its end, where the script that asks goes on with some pass. -/
def resumed (code : TaskCode κ ρ) (uptime : Duration) (m : Sweep.Asking κ ρ) (p : Pass κ) : Sweep κ ρ :=
  (through code uptime m.rest (m.sweep.settled uptime m.task m.rest (m.asking.resumed p))).state

theorem exchanges_askings (code : TaskCode κ ρ) (uptime : Duration) (tasks : List (Task κ)) (sweep : Sweep κ ρ) :
    (askings code uptime tasks sweep).map (·.asking.exchange) = exchanges code uptime tasks sweep := by
  induction tasks generalizing sweep with
  | nil => rfl
  | cons t rest ih =>
    rw [askings, exchanges]
    split
    · rw [List.map_append, List.map_map, ih]
      exact congrArg (· ++ _) (Script.exchanges_askings _ _)
    · exact ih _

/-- A sweep goes on with the pass that the request left. -/
theorem resumed_askings {code : TaskCode κ ρ} {uptime : Duration} {tasks : List (Task κ)} {sweep : Sweep κ ρ}
    {m : Sweep.Asking κ ρ} (here : m ∈ askings code uptime tasks sweep) :
    resumed code uptime m m.asking.reply.state = (through code uptime tasks sweep).state := by
  induction tasks generalizing sweep with
  | nil => exact absurd here List.not_mem_nil
  | cons t rest ih =>
    rw [askings] at here
    rw [through]
    split at here
    · next due =>
      rw [if_pos due]
      rcases List.mem_append.mp here with own | later
      · obtain ⟨a, asked, rfl⟩ := List.mem_map.mp own
        obtain ⟨state, answer⟩ := Script.resumed_askings asked
        rw [resumed, settled, state, answer]
        rfl
      · exact ih later
    · next early =>
      rw [if_neg early]
      exact ih here

end Sweep

namespace Pass

/-- The pass with so many handles passed over. -/
def skipHandles (p : Pass κ) (n : Nat) : Pass κ := { p with nextHandle := Handle.next^[n] p.nextHandle }

/-- A request that is turned down leaves a tick in progress, but for a handle. -/
theorem registry_refused {q : Request κ} {p : Pass κ} (refused : Exchange.Refused ⟨q, (registry q p).answer⟩) :
    (registry q p).state = p.skipHandles (Exchange.minted ⟨q, (registry q p).answer⟩) := by
  have about (handle : Handle) (c : Change κ) (turnedDown : (p.enqueueFor handle c).answer = false) :
      (p.enqueueFor handle c).state = p := by
    rw [enqueueFor] at turnedDown ⊢
    split
    · next there =>
      rw [if_pos there] at turnedDown
      split
      · next room =>
        rw [if_pos room] at turnedDown
        contradiction
      · rfl
    · rfl
  cases q with
  | add key target visibility =>
    simp only [registry, add] at refused ⊢
    split
    · next place =>
      rw [if_pos place] at refused
      split
      · next room =>
        rw [if_pos room] at refused
        exact absurd refused id
      · rfl
    · rfl
  | update handle target =>
    rw [registry, about handle _ refused]
    rfl
  | delete handle =>
    rw [registry, about handle _ refused]
    rfl
  | contains handle => exact absurd refused id
  | idleTime => exact absurd refused id

/-- A handle is given out in vain only where the queue is full. -/
theorem full_of_minted {q : Request κ} {p : Pass κ} (refused : Exchange.Refused ⟨q, (registry q p).answer⟩)
    (minted : Exchange.minted ⟨q, (registry q p).answer⟩ ≠ 0) : p.hasRoom = false := by
  cases q with
  | add key target visibility =>
    by_contra room
    simp only [registry, add, Bool.not_eq_false _ ▸ room, ↓reduceIte] at refused minted
    split at refused
    · exact refused
    · next full =>
      rw [if_neg full] at minted
      exact minted rfl
  | update handle target => exact absurd rfl minted
  | delete handle => exact absurd rfl minted
  | contains handle => exact absurd rfl minted
  | idleTime => exact absurd rfl minted

omit [ToString κ] in
/-- What a tick is asked about a task of its own is turned down exactly where the task is not left or
the queue is full. -/
theorem enqueueFor_eq_false_iff {p : Pass κ} {handle : Handle} {c : Change κ}
    (bounded : p.changes.length ≤ changeCapacity) :
    (p.enqueueFor handle c).answer = false ↔
      handle ∉ p.survivors.map (·.handle) ∨ p.changes.length = changeCapacity := by
  have full : p.hasRoom = false ↔ p.changes.length = changeCapacity := by
    rw [hasRoom, decide_eq_false_iff_not]
    omega
  rw [← contains_iff, enqueueFor, ← full]
  cases p.contains handle with
  | false => simp only [Bool.false_eq_true, ↓reduceIte, not_false_eq_true, true_or]
  | true => cases p.hasRoom <;> simp only [↓reduceIte, Bool.false_eq_true, not_true_eq_false, false_or, reduceCtorEq]

/-- A full queue takes nothing more. -/
theorem change?_full {p : Pass κ} (full : p.hasRoom = false) (q : Request κ) :
    Exchange.change? ⟨q, (registry q p).answer⟩ = none := by
  have about (handle : Handle) (c : Change κ) : (p.enqueueFor handle c).answer = false := by
    rw [enqueueFor, full]
    split <;> rfl
  cases q with
  | add key target visibility =>
    simp only [registry, add, full, Bool.false_eq_true, ↓reduceIte]
    split <;> rfl
  | update handle target =>
    rw [registry, about]
    rfl
  | delete handle =>
    rw [registry, about]
    rfl
  | contains handle => rfl
  | idleTime => rfl

theorem hasRoom_registry {p : Pass κ} (full : p.hasRoom = false) (q : Request κ) :
    (registry q p).state.hasRoom = false := by
  have same : (registry q p).state.changes = p.changes := by
    rw [changes_asked, change?_full full]
    exact List.append_nil _
  rw [hasRoom, same]
  exact full

/-- A tick never queues more than there is room for. -/
theorem length_changes_le {first p : Pass κ} {history : List (Exchange κ)} (run : first.Underway history p)
    (few : first.changes.length ≤ changeCapacity) : p.changes.length ≤ changeCapacity := by
  induction run with
  | begun => exact few
  | @asked _ p q earlier ih =>
    rw [changes_asked, List.length_append]
    cases room : p.hasRoom with
    | false =>
      rw [change?_full room]
      exact ih
    | true =>
      have below : p.changes.length < changeCapacity := of_decide_eq_true room
      have one : (Exchange.change? ⟨q, (registry q p).answer⟩).toList.length ≤ 1 := Option.length_toList_le
      omega
  | skipped earlier head early ih => exact ih
  | settled settlement earlier head due ih => exact ih

/-- While the queue is full, handles that were passed over show in no answer. -/
theorem registry_skipHandles {p : Pass κ} (full : p.hasRoom = false) (n : Nat) (q : Request κ) :
    (registry q (p.skipHandles n)).answer = (registry q p).answer ∧
      (registry q (p.skipHandles n)).state = (registry q p).state.skipHandles n := by
  have full' : (p.skipHandles n).hasRoom = false := full
  have about (handle : Handle) (c : Change κ) :
      ((p.skipHandles n).enqueueFor handle c).answer = (p.enqueueFor handle c).answer ∧
        ((p.skipHandles n).enqueueFor handle c).state = (p.enqueueFor handle c).state.skipHandles n := by
    have same : (p.skipHandles n).contains handle = p.contains handle := rfl
    simp only [enqueueFor, same, full, full', Bool.false_eq_true, ↓reduceIte]
    split <;> exact ⟨rfl, rfl⟩
  cases q with
  | add key target visibility =>
    have same : (p.skipHandles n).occupied < (p.skipHandles n).capacity ↔ p.occupied < p.capacity := Iff.rfl
    simp only [registry, add, same, full, full', Bool.false_eq_true, ↓reduceIte]
    split
    · refine ⟨rfl, ?_⟩
      simp only [skipHandles, ← Function.iterate_succ_apply, ← Function.iterate_succ_apply' Handle.next]
    · exact ⟨rfl, rfl⟩
  | update handle target => exact about handle _
  | delete handle => exact about handle _
  | contains handle => exact ⟨rfl, rfl⟩
  | idleTime => exact ⟨rfl, rfl⟩

theorem run_skipHandles (script : Script κ α) {p : Pass κ} (full : p.hasRoom = false) (n : Nat) :
    (script.run registry (p.skipHandles n)).answer = (script.run registry p).answer ∧
      (script.run registry (p.skipHandles n)).state = (script.run registry p).state.skipHandles n ∧
      (script.run registry p).state.hasRoom = false := by
  induction script generalizing p with
  | done a => exact ⟨rfl, rfl, full⟩
  | ask q next ih =>
    obtain ⟨answer, state⟩ := registry_skipHandles full n q
    simp only [Script.run_ask, Script.answer_ask, answer, state]
    exact ih _ (hasRoom_registry full q)
  | call c next ih => exact Empty.elim c
  | note line next ih => exact ih full

end Pass

namespace Sweep

/-- The sweep with so many handles passed over. -/
def skipHandles (sweep : Sweep κ ρ) (n : Nat) : Sweep κ ρ := { sweep with pass := sweep.pass.skipHandles n }

omit [ToString κ] in
theorem settled_skipHandles {uptime : Duration} {sweep : Sweep κ ρ} {t : Task κ} {rest : List (Task κ)}
    {ran later : Reply (Pass κ) (Except Fault Outcome × ρ)} {n : Nat} (answer : later.answer = ran.answer)
    (state : later.state = ran.state.skipHandles n) :
    sweep.settled uptime t rest later = (sweep.settled uptime t rest ran).skipHandles n := by
  rw [settled, answer, state]
  rfl

theorem through_skipHandles (code : TaskCode κ ρ) (uptime : Duration) (tasks : List (Task κ)) {sweep : Sweep κ ρ}
    (full : sweep.pass.hasRoom = false) (n : Nat) :
    (through code uptime tasks (sweep.skipHandles n)).state = (through code uptime tasks sweep).state.skipHandles n := by
  induction tasks generalizing sweep with
  | nil => rfl
  | cons t rest ih =>
    rw [through, through]
    split
    · obtain ⟨answer, state, full⟩ := Pass.run_skipHandles (code t.key sweep.shared)
        (p := { sweep.pass with waiting := t :: rest }) full n
      have step : ((sweep.skipHandles n).dispatch code uptime t rest).state =
          (sweep.dispatch code uptime t rest).state.skipHandles n := by
        rw [state_dispatch, state_dispatch]
        exact settled_skipHandles answer state
      show (through code uptime rest ((sweep.skipHandles n).dispatch code uptime t rest).state).state = _
      rw [step]
      exact ih full
    · exact @ih (sweep.skip t rest) full

/-- What is left of a tick goes as if the request that was turned down had not been made. -/
theorem resumed_refused {code : TaskCode κ ρ} {uptime : Duration} {m : Sweep.Asking κ ρ}
    (refused : m.asking.exchange.Refused) :
    resumed code uptime m m.asking.reply.state =
      (resumed code uptime m m.asking.pass).skipHandles m.asking.exchange.minted := by
  have left : m.asking.reply.state = m.asking.pass.skipHandles m.asking.exchange.minted :=
    Pass.registry_refused refused
  rw [left]
  by_cases none : m.asking.exchange.minted = 0
  · rw [none]
    rfl
  · have full := Pass.full_of_minted refused none
    obtain ⟨answer, state, full⟩ := Pass.run_skipHandles (m.asking.next m.asking.reply.answer) full
      m.asking.exchange.minted
    rw [resumed, resumed, ← through_skipHandles]
    · rw [Asking.resumed, settled_skipHandles answer state]
      rfl
    · exact full

end Sweep

namespace Scheduler

/-- The scheduler with so many handles passed over. -/
def skipHandles (s : Scheduler κ τ) (n : Nat) : Scheduler κ τ := { s with nextHandle := Handle.next^[n] s.nextHandle }

theorem carryOut_skipHandles (c : Change κ) (s : Scheduler κ τ) (n : Nat) :
    ((s.skipHandles n).carryOut c).state = (s.carryOut c).state.skipHandles n := by
  cases c with
  | add task =>
    have same : (s.skipHandles n).tasks.length < (s.skipHandles n).capacity ↔ s.tasks.length < s.capacity := Iff.rfl
    simp only [carryOut, same]
    split <;> rfl
  | retarget handle target =>
    have same : (s.skipHandles n).contains handle = s.contains handle := rfl
    simp only [carryOut, update, same]
    split <;> rfl
  | delete handle =>
    have same : (s.skipHandles n).find? handle = s.find? handle := rfl
    simp only [carryOut, delete, same]
    split <;> rfl

theorem carryOutAll_skipHandles (changes : List (Change κ)) (s : Scheduler κ τ) (n : Nat) :
    (carryOutAll changes (s.skipHandles n)).state = (carryOutAll changes s).state.skipHandles n := by
  induction changes generalizing s with
  | nil => rfl
  | cons c rest ih =>
    show (carryOutAll rest ((s.skipHandles n).carryOut c).state).state = _
    rw [carryOut_skipHandles]
    exact ih _

theorem commit_skipHandles (s : Scheduler κ τ) (p : Pass κ) (n : Nat) :
    (s.commit (p.skipHandles n)).state = (s.commit p).state.skipHandles n :=
  carryOutAll_skipHandles p.changes
    { s with tasks := p.entries.filterMap Entry.survivor?, nextHandle := p.nextHandle } n

/-- Each request of a tick when it is about to be made. -/
def askings (s : Scheduler κ τ) (code : TaskCode κ ρ) (shared : ρ) : List (Sweep.Asking κ ρ) :=
  if s.active then
    Sweep.askings code (s.uptime + s.period) s.aged
      { pass := s.firstPass, events := s.events, tally := .none, shared }
  else []

/-- What a tick leaves and counts, where the script that asks goes on with some pass. -/
def resumed (s : Scheduler κ τ) (code : TaskCode κ ρ) (m : Sweep.Asking κ ρ) (p : Pass κ) :
    (Scheduler κ τ × ρ) × TickTally :=
  let swept := Sweep.resumed code (s.uptime + s.period) m p
  let ended := { s with uptime := s.uptime + s.period, events := swept.events }
  (((ended.commit swept.pass).state, swept.shared), swept.tally)

/-- No request of a tick is left out. -/
theorem exchanges_askings (s : Scheduler κ τ) (active : s.active = true) (code : TaskCode κ ρ) (shared : ρ) :
    (s.askings code shared).map (·.asking.exchange) = s.tickExchanges code shared := by
  rw [askings, if_pos active]
  exact Sweep.exchanges_askings _ _ _ _

/-- A tick goes on with the pass that the request left. -/
theorem resumed_askings {s : Scheduler κ τ} {code : TaskCode κ ρ} {shared : ρ} {m : Sweep.Asking κ ρ}
    (here : m ∈ s.askings code shared) :
    s.resumed code m m.asking.reply.state = ((s.tick code shared).state, (s.tick code shared).answer) := by
  rw [askings] at here
  split at here
  · next active =>
    obtain ⟨state, answer⟩ := s.tick_active active code shared
    rw [state, answer, resumed, Sweep.resumed_askings here]
    rfl
  · exact absurd here List.not_mem_nil

/-- A request that is turned down between ticks leaves the scheduler as it was. -/
theorem registry_refused {q : Request κ} {s : Scheduler κ τ}
    (refused : Exchange.Refused ⟨q, (registry q s).answer⟩) : (registry q s).state = s := by
  cases q with
  | add key target visibility =>
    simp only [registry, add] at refused ⊢
    split
    · next place =>
      rw [if_pos place] at refused
      exact absurd refused id
    · rfl
  | update handle target =>
    simp only [registry, update] at refused ⊢
    split
    · next there =>
      rw [if_pos there] at refused
      contradiction
    · rfl
  | delete handle =>
    simp only [registry, delete] at refused ⊢
    split
    · next there =>
      rw [there] at refused
      contradiction
    · rfl
  | contains handle => exact absurd refused id
  | idleTime => exact absurd refused id

/-- A request that is turned down changes nothing. Between ticks the scheduler stays as it was. In the
middle of a tick the view and the queue stay as they were, and the tick ends as it would have, had the
request not been made, but for the one handle that goes with a registration for which the queue was full.
Changes to a task are turned down there exactly where the task is not left or the queue is full. -/
theorem refused_requests_leave_no_trace (s : Scheduler κ τ) :
    (∀ q, Exchange.Refused ⟨q, (registry q s).answer⟩ → (registry q s).state = s) ∧
    (∀ history p, s.firstPass.Underway history p →
      (∀ q, Exchange.Refused ⟨q, (Pass.registry q p).answer⟩ →
        (Pass.registry q p).state.survivors = p.survivors ∧ (Pass.registry q p).state.changes = p.changes ∧
          (Pass.registry q p).state = p.skipHandles (Exchange.minted ⟨q, (Pass.registry q p).answer⟩)) ∧
      (∀ handle target, (Pass.registry (.update handle target) p).answer = false ↔
        handle ∉ p.survivors.map (·.handle) ∨ p.changes.length = Pass.changeCapacity) ∧
      ∀ handle, (Pass.registry (.delete handle) p).answer = false ↔
        handle ∉ p.survivors.map (·.handle) ∨ p.changes.length = Pass.changeCapacity) ∧
    ∀ {ρ : Type} (code : TaskCode κ ρ) (shared : ρ), ∀ m ∈ s.askings code shared, m.asking.exchange.Refused →
      let ((unasked, left), tally) := s.resumed code m m.asking.pass
      (s.tick code shared).state = (unasked.skipHandles m.asking.exchange.minted, left) ∧
        (s.tick code shared).answer = tally := by
  refine ⟨fun q refused => registry_refused refused, fun history p run => ⟨fun q refused => ?_, ?_, ?_⟩, ?_⟩
  · rw [Pass.registry_refused refused]
    exact ⟨rfl, rfl, rfl⟩
  · intro handle target
    exact Pass.enqueueFor_eq_false_iff (Pass.length_changes_le run (Nat.zero_le _))
  · intro handle
    exact Pass.enqueueFor_eq_false_iff (Pass.length_changes_le run (Nat.zero_le _))
  · intro ρ code shared m here refused
    have whole := resumed_askings here
    rw [resumed, Sweep.resumed_refused refused] at whole
    obtain ⟨state, answer⟩ := Prod.mk.inj whole
    rw [← state, ← answer]
    exact ⟨congrArg (·, _) (commit_skipHandles _ _ _), rfl⟩

/-- A task that fills the queue of the tick, and asks for one more task then. -/
def crowding : TaskCode Nat Unit
  | 0, _ => fill Pass.changeCapacity
  | _, _ => return (.ok .remove, ())
where
  fill : Nat → Script Nat (Except Fault Outcome × Unit)
    | 0 => do
      let _ ← Program.add 3 (.ofMillis 5) .visible
      let _ ← Program.delete ⟨2⟩
      return (.ok (.again (.ofSeconds 1)), ())
    | n + 1 => do
      let _ ← Program.update ⟨2⟩ (.ofMillis 7)
      fill n

theorem refused_requests_leave_no_trace_crowding :
    let s : Scheduler Nat ManualTimer := (empty 8 .stopped).run threeTasks
    ∃ m ∈ s.askings crowding (),
      m.asking.request = .add 3 (.ofMillis 5) .visible ∧ m.asking.exchange.Refused ∧
      (s.tick crowding ()).state.1 = (s.resumed crowding m m.asking.pass).1.1.skipHandles 1 := by
  have last : ∃ m ∈ ((empty 8 ManualTimer.stopped).run threeTasks).askings crowding (),
      m.asking.request = .add 3 (.ofMillis 5) .visible ∧ m.asking.exchange.Refused ∧
        m.asking.exchange.minted = 1 := by decide +kernel
  obtain ⟨m, here, asked, refused, minted⟩ := last
  have spared := (refused_requests_leave_no_trace ((empty 8 .stopped).run threeTasks)).2.2 crowding () m here refused
  rw [minted] at spared
  exact ⟨m, here, asked, refused, congrArg Prod.fst spared.1⟩

end Scheduler
end
end ConferenceBadge
