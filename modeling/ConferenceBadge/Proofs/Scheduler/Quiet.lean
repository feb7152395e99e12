import ConferenceBadge.Proofs.Guarantee
import ConferenceBadge.Proofs.Scheduler.Run

/-!
Ticks in which no task changes the registry. The runs of a tick are its stints, each with the common
state that it finds and the one that it leaves. Where every task that runs leaves the registry as it is,
no change is queued, and the tick goes over the tasks and their common state alone (`tick_quiet`).
-/
namespace ConferenceBadge

/-- One run of a task. -/
structure Stint (κ ρ : Type) where
  key : κ
  found : ρ
  left : ρ

theorem Entry.filterMap_one {κ : Type} (e : Entry κ) : [e].filterMap Entry.survivor? = e.survivor?.toList := by
  cases left : e.survivor? with
  | none => rw [List.filterMap_cons_none left]; rfl
  | some t => rw [List.filterMap_cons_some left]; rfl

namespace Sweep

variable {κ ρ : Type}

/-- The tasks left of those that the sweep has passed. -/
def kept (sweep : Sweep κ ρ) : List (Task κ) := sweep.pass.visited.filterMap Entry.survivor?

/-- A task is told the idle time of the tasks left so far, itself and those behind it. -/
theorem idleTime_kept {sweep : Sweep κ ρ} {tasks : List (Task κ)} (ahead : sweep.pass.waiting = tasks)
    (unchanged : sweep.pass.changes = []) : sweep.pass.idleTime = Task.idleTime (sweep.kept ++ tasks) := by
  simp [Pass.idleTime, Pass.survivors_eq unchanged, Pass.entries, ahead, kept, Entry.survivor?, Function.comp_def]

variable [ToString κ]

/-- The runs of the tasks of a tick, in order. -/
def stints (code : TaskCode κ ρ) (uptime : Duration) : List (Task κ) → Sweep κ ρ → List (Stint κ ρ)
  | [], _ => []
  | t :: rest, sweep =>
    if t.isDue then
      let next := (sweep.dispatch code uptime t rest).state
      ⟨t.key, sweep.shared, next.shared⟩ :: stints code uptime rest next
    else stints code uptime rest (sweep.skip t rest)

/-- What a task leaves of a sweep where it leaves the registry alone. -/
theorem dispatch_quiet {code : TaskCode κ ρ} (uptime : Duration) {sweep : Sweep κ ρ} {t : Task κ} {rest : List (Task κ)}
    (ahead : sweep.pass.waiting = t :: rest)
    (quiet : ((code t.key sweep.shared).run Pass.registry sweep.pass).state = sweep.pass) :
    let answer := ((code t.key sweep.shared).run Pass.registry sweep.pass).answer
    let next := (sweep.dispatch code uptime t rest).state
    next.pass = sweep.pass.passed ⟨t, some (.ofRun answer.1)⟩ rest ∧
      next.kept = sweep.kept ++ (Entry.survivor? ⟨t, some (.ofRun answer.1)⟩).toList ∧
      next.shared = answer.2 ∧ next.tally = sweep.tally.counting (.ofRun answer.1) := by
  have here : { sweep.pass with waiting := t :: rest } = sweep.pass := by rw [← ahead]
  intro answer next
  have passed : next.pass = sweep.pass.passed ⟨t, some (.ofRun answer.1)⟩ rest := by
    simp only [next, dispatch, here, quiet, answer]
  refine ⟨passed, ?_, ?_, ?_⟩
  · rw [kept, passed, Pass.passed, List.filterMap_append, Entry.filterMap_one]
    rfl
  · simp only [next, dispatch, here, answer]
  · simp only [next, dispatch, here, answer]

/-- What each task keeps that is passed over, and each that runs and leaves the registry alone, a sweep
keeps, and it queues no change. -/
theorem through_quiet (code : TaskCode κ ρ) (uptime : Duration)
    {motive : List (Stint κ ρ) → List (Task κ) → List (Task κ) → ρ → TickTally → Prop}
    (skipped : ∀ done kept t rest shared tally, t.isDue = false → motive done kept (t :: rest) shared tally →
      motive done (kept ++ [t]) rest shared tally)
    (dispatched : ∀ done kept t rest shared tally, t.isDue = true → motive done kept (t :: rest) shared tally →
      ∀ p : Pass κ, p.idleTime = Task.idleTime (kept ++ t :: rest) →
        Program.Ensures Pass.registry (Interface.anyone .silent)
          (fun ran after => after = p ∧ motive (done ++ [⟨t.key, shared, ran.2⟩])
            (kept ++ (Entry.survivor? ⟨t, some (.ofRun ran.1)⟩).toList) rest ran.2 (tally.counting (.ofRun ran.1)))
          (code t.key shared) p)
    (tasks : List (Task κ)) (done : List (Stint κ ρ)) (sweep : Sweep κ ρ) (ahead : sweep.pass.waiting = tasks)
    (unchanged : sweep.pass.changes = []) (before : motive done sweep.kept tasks sweep.shared sweep.tally) :
    let last := (through code uptime tasks sweep).state
    last.pass = { sweep.pass with visited := last.pass.visited, waiting := [] } ∧
      motive (done ++ stints code uptime tasks sweep) last.kept [] last.shared last.tally := by
  induction tasks generalizing done sweep with
  | nil =>
    rw [stints, List.append_nil]
    refine ⟨?_, before⟩
    show sweep.pass = { sweep.pass with waiting := [] }
    rw [← ahead]
  | cons t rest ih =>
    rw [through, stints]
    cases due : t.isDue with
    | false =>
      have after := skipped _ _ t rest _ _ due before
      have passed : (sweep.skip t rest).kept = sweep.kept ++ [t] := by
        rw [kept, skip, Pass.passed, List.filterMap_append]
        rfl
      rw [← passed] at after
      exact ih done (sweep.skip t rest) rfl unchanged after
    | true =>
      obtain ⟨quiet, after⟩ := Script.ensures_run
        (dispatched _ _ t rest _ _ due before sweep.pass (idleTime_kept ahead unchanged))
      obtain ⟨passed, left, shared, tally⟩ := dispatch_quiet uptime ahead quiet
      rw [← left, ← shared, ← tally] at after
      have room : (sweep.dispatch code uptime t rest).state.pass.waiting = rest := by
        rw [passed]
        rfl
      have none : (sweep.dispatch code uptime t rest).state.pass.changes = [] := by
        rw [passed]
        exact unchanged
      obtain ⟨pass, last⟩ := ih _ _ room none after
      rw [List.append_assoc] at last
      rw [passed] at pass
      exact ⟨pass, last⟩

end Sweep

namespace Scheduler

variable {κ τ ρ : Type} [ToString κ]

/-- The runs of a tick, in order. -/
def stints (s : Scheduler κ τ) (code : TaskCode κ ρ) (shared : ρ) : List (Stint κ ρ) :=
  if s.active then
    Sweep.stints code (s.uptime + s.period) s.aged
      { pass := s.firstPass, events := s.events, tally := .none, shared }
  else []

/-- What holds of the runs so far, the tasks kept, those that wait, the common state and the tally is
known at the end of a tick where each task that is passed over keeps it, and each that runs keeps it and
leaves the registry alone. -/
theorem tick_quiet {s : Scheduler κ τ} (active : s.active = true) (code : TaskCode κ ρ) (shared : ρ)
    {motive : List (Stint κ ρ) → List (Task κ) → List (Task κ) → ρ → TickTally → Prop}
    (skipped : ∀ done kept t rest shared tally, t.isDue = false → motive done kept (t :: rest) shared tally →
      motive done (kept ++ [t]) rest shared tally)
    (dispatched : ∀ done kept t rest shared tally, t.isDue = true → motive done kept (t :: rest) shared tally →
      ∀ p : Pass κ, p.idleTime = Task.idleTime (kept ++ t :: rest) →
        Program.Ensures Pass.registry (Interface.anyone .silent)
          (fun ran after => after = p ∧ motive (done ++ [⟨t.key, shared, ran.2⟩])
            (kept ++ (Entry.survivor? ⟨t, some (.ofRun ran.1)⟩).toList) rest ran.2 (tally.counting (.ofRun ran.1)))
          (code t.key shared) p)
    (first : motive [] [] s.aged shared .none) :
    ∃ tasks events, (s.tick code shared).state.1 = { s with tasks, uptime := s.uptime + s.period, events } ∧
      motive (s.stints code shared) tasks [] (s.tick code shared).state.2 (s.tick code shared).answer := by
  obtain ⟨pass, last⟩ := Sweep.through_quiet code (s.uptime + s.period) skipped dispatched s.aged []
    { pass := s.firstPass, events := s.events, tally := .none, shared } rfl rfl first
  obtain ⟨state, answer⟩ := s.tick_active active code shared
  have runs : s.stints code shared = Sweep.stints code (s.uptime + s.period) s.aged
      { pass := s.firstPass, events := s.events, tally := .none, shared } := if_pos active
  rw [state, answer, runs]
  refine ⟨(s.swept code shared).state.kept, (s.swept code shared).state.events, ?_, last⟩
  have entries : (s.swept code shared).state.pass.entries = (s.swept code shared).state.pass.visited := by
    rw [swept, pass, Pass.entries, List.map_nil, List.append_nil]
  have unchanged : (s.swept code shared).state.pass.changes = [] := by
    rw [swept, pass]
    rfl
  have unminted : (s.swept code shared).state.pass.nextHandle = s.nextHandle := by
    rw [swept, pass]
    rfl
  simp only [commit, unchanged, carryOutAll, unminted, entries, Sweep.kept]

end Scheduler
end ConferenceBadge
