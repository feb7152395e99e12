import ConferenceBadge.Proofs.Scheduler.Keys

/-!
Counting the handles given out. Handle numbers start over, and even a refused request may use one up; the
count does neither. Code can keep it (`Action.counting`): it registers every task under its key and the
number of its handle, and does nothing else differently (`act_counting`, `run_counting`). So the number
of a task can be read off its key.
-/
namespace ConferenceBadge

variable {κ τ ρ α : Type}

/-- A request under a key that names the original one was answered as the original is. -/
theorem Exchange.relabel_answerOf {ι : Type} {f : κ → ι} {g : ι → κ} (inverse : ∀ i, f (g i) = i) (q : Request ι)
    (answer : (q.relabel g).Answer) : Exchange.relabel f ⟨q.relabel g, answer⟩ = ⟨q, q.answerOf answer⟩ := by
  cases q with
  | add key target visibility =>
    exact congrArg (fun name => (⟨.add name target visibility, answer⟩ : Exchange ι)) (inverse key)
  | update | delete | contains | idleTime => rfl

namespace Script

/-- The same script, which also counts the handles given out, `n` of them before it, and registers every
task under its key and the number of its handle. -/
def counting : Script κ α → Nat → Script (κ × Nat) (α × Nat)
  | .done a, n => .done (a, n)
  | .ask q next, n => .ask (q.relabel (·, n + 1)) fun answer =>
      counting (next (q.answerOf answer)) (n + Exchange.minted ⟨q, q.answerOf answer⟩)
  | .call c _, _ => Empty.elim c
  | .note line next, n => .note line (counting next n)

end Script

/-- The same code, which also counts the handles given out. -/
def TaskCode.counting (code : TaskCode κ ρ) : TaskCode (κ × Nat) (ρ × Nat) := fun key shared => do
  let ((result, last), n) ← (code key.1 shared.1).counting shared.2
  return (result, (last, n))

/-- The same action after `n` handles have been given out. -/
def Action.counting (n : Nat) : Action κ → Action (κ × Nat)
  | .start period => .start period
  | .stop => .stop
  | .ask q => .ask (q.relabel (·, n + 1))
  | .tick code shared => .tick code.counting (shared, n)

/-- The same actions, with the handles given out in them counted on. -/
def Scheduler.counting [ToString κ] [TickTimer τ] : Scheduler κ τ → Nat → List (Action κ) → List (Action (κ × Nat))
  | _, _, [] => []
  | s, n, a :: rest => a.counting n :: (s.act a).counting (n + Exchange.mintedIn (s.exchanges a)) rest

namespace Script

variable [ToString κ]

/-- Counting changes nothing else of a script in the middle of a tick. -/
theorem run_counting (script : Script κ α) (n : Nat) (p : Pass (κ × Nat)) :
    ((script.counting n).run Pass.registry p).answer =
        ((script.run Pass.registry (p.relabel Prod.fst)).answer,
          n + Exchange.mintedIn (script.exchanges Pass.registry (p.relabel Prod.fst))) ∧
      ((script.counting n).run Pass.registry p).state.relabel Prod.fst =
        (script.run Pass.registry (p.relabel Prod.fst)).state ∧
      ((script.counting n).exchanges Pass.registry p).map (Exchange.relabel Prod.fst) =
        script.exchanges Pass.registry (p.relabel Prod.fst) := by
  induction script generalizing n p with
  | done a => exact ⟨rfl, rfl, rfl⟩
  | ask q next ih =>
    have inverse : ∀ key : κ, Prod.fst (key, n + 1) = key := fun _ => rfl
    obtain ⟨answer, state⟩ := Pass.registry_relabel inverse q p
    have same := Exchange.relabel_answerOf inverse q (Pass.registry (q.relabel (·, n + 1)) p).answer
    obtain ⟨last, after, rest⟩ := ih (q.answerOf (Pass.registry (q.relabel (·, n + 1)) p).answer)
      (n + Exchange.minted ⟨q, q.answerOf (Pass.registry (q.relabel (·, n + 1)) p).answer⟩)
      (Pass.registry (q.relabel (·, n + 1)) p).state
    rw [answer] at last after rest same
    rw [state] at last after rest
    refine ⟨?_, ?_, ?_⟩
    · rw [counting, answer_ask, answer_ask, answer, last, exchanges, Exchange.mintedIn, Nat.add_assoc]
    · rw [counting, run_ask, run_ask, answer, after]
    · rw [counting, exchanges, exchanges, List.map_cons, same, answer, rest]
  | call c next ih => exact Empty.elim c
  | note line next ih => exact ih n p

end Script

namespace Sweep

/-- The sweep without its count. -/
def plain (sweep : Sweep (κ × Nat) (ρ × Nat)) : Sweep κ ρ :=
  { pass := sweep.pass.relabel Prod.fst, events := sweep.events.relabel Prod.fst, tally := sweep.tally,
    shared := sweep.shared.1 }

theorem event?_relabel {ι : Type} (f : κ → ι) (t : Task κ) (result : Except Fault Outcome) :
    event? (t.relabel f) result = (event? t result).map (Event.relabel f) := by
  cases result with
  | error fault => rfl
  | ok outcome =>
    simp only [event?]
    split <;> rfl

variable [ToString κ]

theorem exchanges_counting (code : TaskCode κ ρ) (key : κ × Nat) (shared : ρ × Nat) (p : Pass (κ × Nat)) :
    (code.counting key shared).exchanges Pass.registry p =
      ((code key.1 shared.1).counting shared.2).exchanges Pass.registry p := by
  rw [TaskCode.counting, Script.exchanges_bind]
  exact List.append_nil _

theorem run_counting (code : TaskCode κ ρ) (key : κ × Nat) (shared : ρ × Nat) (p : Pass (κ × Nat)) :
    ((code.counting key shared).run Pass.registry p).state =
        (((code key.1 shared.1).counting shared.2).run Pass.registry p).state ∧
      ((code.counting key shared).run Pass.registry p).answer =
        let ran := (((code key.1 shared.1).counting shared.2).run Pass.registry p).answer
        (ran.1.1, (ran.1.2, ran.2)) := by
  have parts := Script.run_bind Pass.registry ((code key.1 shared.1).counting shared.2)
    (fun ran => pure (ran.1.1, (ran.1.2, ran.2))) p
  rw [show code.counting key shared =
    ((code key.1 shared.1).counting shared.2).bind fun ran => pure (ran.1.1, (ran.1.2, ran.2)) from rfl, parts]
  exact ⟨rfl, rfl⟩

/-- Counting changes nothing else of one task's run. -/
theorem dispatch_counting (code : TaskCode κ ρ) (uptime : Duration) (sweep : Sweep (κ × Nat) (ρ × Nat))
    (t : Task (κ × Nat)) (rest : List (Task (κ × Nat))) :
    let first : Pass κ := { sweep.plain.pass with waiting := t.relabel Prod.fst :: rest.map (·.relabel Prod.fst) }
    (sweep.dispatch code.counting uptime t rest).state.plain =
        (sweep.plain.dispatch code uptime (t.relabel Prod.fst) (rest.map (·.relabel Prod.fst))).state ∧
      (sweep.dispatch code.counting uptime t rest).state.shared.2 =
        sweep.shared.2 + Exchange.mintedIn ((code t.key.1 sweep.shared.1).exchanges Pass.registry first) := by
  intro first
  obtain ⟨state, answer⟩ := run_counting code t.key sweep.shared { sweep.pass with waiting := t :: rest }
  obtain ⟨last, after, -⟩ :=
    (code t.key.1 sweep.shared.1).run_counting sweep.shared.2 { sweep.pass with waiting := t :: rest }
  rw [last] at answer
  have recorded (result : Except Fault Outcome) :
      ((event? t result).elim sweep.events (sweep.events.record uptime)).relabel Prod.fst =
        (event? (t.relabel Prod.fst) result).elim (sweep.events.relabel Prod.fst)
          ((sweep.events.relabel Prod.fst).record uptime) := by
    rw [event?_relabel]
    cases event? t result with
    | none => rfl
    | some event => exact EventLog.record_relabel sweep.events uptime event
  constructor
  · simp only [dispatch, plain, state, answer, Pass.passed_relabel, after]
    congr 1
    exact recorded _
  · simp only [dispatch, answer]
    rfl

/-- Counting changes nothing else of a sweep. -/
theorem through_counting (code : TaskCode κ ρ) (uptime : Duration) (tasks : List (Task (κ × Nat)))
    (sweep : Sweep (κ × Nat) (ρ × Nat)) :
    (through code.counting uptime tasks sweep).state.plain =
        (through code uptime (tasks.map (·.relabel Prod.fst)) sweep.plain).state ∧
      (through code.counting uptime tasks sweep).state.shared.2 = sweep.shared.2 +
        Exchange.mintedIn (exchanges code uptime (tasks.map (·.relabel Prod.fst)) sweep.plain) ∧
      (exchanges code.counting uptime tasks sweep).map (Exchange.relabel Prod.fst) =
        exchanges code uptime (tasks.map (·.relabel Prod.fst)) sweep.plain := by
  induction tasks generalizing sweep with
  | nil => exact ⟨rfl, rfl, rfl⟩
  | cons t rest ih =>
    by_cases due : t.isDue
    · have same : (t.relabel Prod.fst : Task κ).isDue := due
      obtain ⟨ran, count⟩ := dispatch_counting code uptime sweep t rest
      obtain ⟨state, later, asked⟩ := ih (sweep.dispatch code.counting uptime t rest).state
      obtain ⟨-, -, here⟩ :=
        (code t.key.1 sweep.shared.1).run_counting sweep.shared.2 { sweep.pass with waiting := t :: rest }
      simp only [through, exchanges, List.map_cons, due, same, ↓reduceIte, Reply.andThen, List.map_append,
        Exchange.mintedIn_append, exchanges_counting]
      rw [ran] at state later asked
      refine ⟨state, ?_, ?_⟩
      · rw [later, count, Nat.add_assoc]
        rfl
      · rw [here, asked]
        rfl
    · have same : ¬ (t.relabel Prod.fst : Task κ).isDue := due
      obtain ⟨state, later, asked⟩ := ih (sweep.skip t rest)
      have skipped :
          (sweep.skip t rest).plain = sweep.plain.skip (t.relabel Prod.fst) (rest.map (·.relabel Prod.fst)) := by
        simp only [plain, skip, Pass.passed_relabel]
        rfl
      rw [skipped] at state later asked
      simp only [through, exchanges, List.map_cons, due, same, Bool.false_eq_true, ↓reduceIte]
      exact ⟨state, later, asked⟩

end Sweep

namespace Scheduler

variable [ToString κ]

theorem swept_counting (s : Scheduler (κ × Nat) τ) (code : TaskCode κ ρ) (shared : ρ) (n : Nat) :
    (s.swept code.counting (shared, n)).state.plain = ((s.relabel Prod.fst).swept code shared).state ∧
      (s.swept code.counting (shared, n)).state.shared.2 =
        n + Exchange.mintedIn ((s.relabel Prod.fst).tickExchanges code shared) ∧
      (s.tickExchanges code.counting (shared, n)).map (Exchange.relabel Prod.fst) =
        (s.relabel Prod.fst).tickExchanges code shared := by
  have aged : s.aged.map (·.relabel Prod.fst) = (s.relabel Prod.fst).aged := by
    simp only [Scheduler.aged, relabel, List.map_map]
    rfl
  have first : (Sweep.mk s.firstPass s.events .none (shared, n)).plain =
      Sweep.mk (s.relabel Prod.fst).firstPass (s.relabel Prod.fst).events .none shared := by
    simp only [Sweep.plain, firstPass, begin, Pass.relabel, aged]
    rfl
  have all := Sweep.through_counting code (s.uptime + s.period) s.aged (Sweep.mk s.firstPass s.events .none (shared, n))
  rw [first, aged] at all
  exact all

variable [TickTimer τ]

/-- Counting changes nothing else of an action. -/
theorem act_counting (s : Scheduler (κ × Nat) τ) (n : Nat) (a : Action κ) :
    (s.act (a.counting n)).relabel Prod.fst = (s.relabel Prod.fst).act a ∧
      (s.exchanges (a.counting n)).map (Exchange.relabel Prod.fst) = (s.relabel Prod.fst).exchanges a := by
  cases a with
  | start period =>
    refine ⟨?_, rfl⟩
    simp only [Action.counting, act, start]
    split <;> rfl
  | stop => exact ⟨rfl, rfl⟩
  | ask q =>
    have inverse : ∀ key : κ, Prod.fst (key, n + 1) = key := fun _ => rfl
    obtain ⟨answer, state⟩ := registry_relabel inverse q s
    refine ⟨state, ?_⟩
    simp only [Action.counting, exchanges, List.map_singleton]
    rw [Exchange.relabel_answerOf inverse, answer]
  | tick code shared =>
    have running : (s.relabel Prod.fst).active = s.active := rfl
    by_cases active : s.active
    · obtain ⟨state, -, asked⟩ := swept_counting s code shared n
      refine ⟨?_, ?_⟩
      · simp only [Action.counting, act, (s.tick_active active _ _).1,
          ((s.relabel Prod.fst).tick_active (running.trans active) _ _).1, ← state]
        exact (commit_relabel { s with
          uptime := s.uptime + s.period
          events := (s.swept code.counting (shared, n)).state.events } _).symm
      · simp only [Action.counting, exchanges, running, active, ↓reduceIte, asked]
    · have stopped : s.active = false := by simpa using active
      simp only [Action.counting, act, exchanges, running, stopped, Bool.false_eq_true, ↓reduceIte, List.map_nil,
        (s.tick_stopped stopped _ _).1, ((s.relabel Prod.fst).tick_stopped (running.trans stopped) _ _).1]
      exact ⟨trivial, trivial⟩

/-- Counting changes nothing else of a run. -/
theorem run_counting (s : Scheduler (κ × Nat) τ) (n : Nat) (actions : List (Action κ)) :
    (s.run ((s.relabel Prod.fst).counting n actions)).relabel Prod.fst = (s.relabel Prod.fst).run actions ∧
      (s.history ((s.relabel Prod.fst).counting n actions)).map (Exchange.relabel Prod.fst) =
        (s.relabel Prod.fst).history actions := by
  induction actions generalizing s n with
  | nil => exact ⟨rfl, rfl⟩
  | cons a rest ih =>
    obtain ⟨state, asked⟩ := s.act_counting n a
    obtain ⟨last, later⟩ := ih (s.act (a.counting n)) (n + Exchange.mintedIn ((s.relabel Prod.fst).exchanges a))
    rw [state] at last later
    refine ⟨?_, ?_⟩
    · simpa only [counting, run, List.foldl_cons] using last
    · rw [counting, history, history, List.map_append, asked, later]

end Scheduler
end ConferenceBadge
