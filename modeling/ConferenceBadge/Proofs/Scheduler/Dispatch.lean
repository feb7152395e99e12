import ConferenceBadge.Proofs.Scheduler.Queue
import Mathlib.Data.List.Induction

/-!
What one tick runs, reports and leaves. The runs are observed by code that keeps a journal of them and
does nothing else differently (`tick_journaling`). The journal lists the tasks that are due, the report
counts how their runs ended, and the number of tasks afterwards follows from the report and from the
requests that were accepted (`tick_runs_due_and_reports`).
-/
namespace ConferenceBadge

variable {κ τ ρ : Type}

/-- What tasks were run for and how each run ended, in order. -/
abbrev Journal (κ : Type) : Type := List (κ × Except Fault Outcome)

namespace Journal

/-- A run that wants to go on after some time. -/
def reschedules : Except Fault Outcome → Bool
  | .ok (.again delay) => delay ≠ .zero
  | .ok .remove | .error _ => false

/-- A run that asks to be removed, if only by a delay of zero. -/
def removes : Except Fault Outcome → Bool
  | .ok (.again delay) => delay = .zero
  | .ok .remove => true
  | .error _ => false

def faults : Except Fault Outcome → Bool
  | .ok _ => false
  | .error _ => true

/-- How many runs ended in a way. -/
def count (ends : Except Fault Outcome → Bool) (journal : Journal κ) : Nat := journal.countP fun ran => ends ran.2

/-- The tally of the runs in a journal. -/
def tally (journal : Journal κ) : TickTally where
  fired := min journal.length TickTally.most
  rescheduled := min (journal.count reschedules) TickTally.most
  removed := min (journal.count removes) TickTally.most
  faulted := min (journal.count faults) TickTally.most

theorem countP_append_one {α : Type} (p : α → Bool) (l : List α) (a : α) :
    (l ++ [a]).countP p = l.countP p + (p a).toNat := by
  rw [List.countP_append, List.countP_singleton]
  cases p a <;> rfl

theorem count_append (ends : Except Fault Outcome → Bool) (journal : Journal κ) (key : κ)
    (result : Except Fault Outcome) :
    count ends (journal ++ [(key, result)]) = count ends journal + (ends result).toNat :=
  countP_append_one _ _ _

/-- Every run ends in one of three ways. -/
theorem length_eq (journal : Journal κ) :
    journal.length = journal.count reschedules + journal.count removes + journal.count faults := by
  induction journal using List.reverseRecOn with
  | nil => rfl
  | append_singleton earlier last ih =>
    obtain ⟨key, result⟩ := last
    have one : (reschedules result).toNat + (removes result).toNat + (faults result).toNat = 1 := by
      cases result with
      | error fault => rfl
      | ok outcome =>
        cases outcome with
        | remove => rfl
        | again delay => by_cases none : delay = .zero <;> simp [reschedules, removes, faults, none]
    rw [List.length_append, List.length_singleton, ih, count_append, count_append, count_append]
    omega

/-- Up to the highest count, nothing is left out of a tally. -/
theorem tally_of_few {journal : Journal κ} (few : journal.length ≤ TickTally.most) :
    journal.tally = ⟨journal.length, journal.count reschedules, journal.count removes, journal.count faults⟩ := by
  have parts := journal.length_eq
  have counted (n : Nat) (part : n ≤ journal.length) : min n TickTally.most = n :=
    Nat.min_eq_left (Nat.le_trans part few)
  rw [tally, counted _ (Nat.le_refl _), counted (journal.count reschedules) (by omega),
    counted (journal.count removes) (by omega), counted (journal.count faults) (by omega)]

/-- One more run is counted as it is settled. -/
theorem tally_append (journal : Journal κ) (key : κ) (result : Except Fault Outcome) :
    tally (journal ++ [(key, result)]) = journal.tally.counting (.ofRun result) := by
  have step (n : Nat) : min (n + 1) TickTally.most = min (min n TickTally.most + 1) TickTally.most := by omega
  have fired : (journal ++ [(key, result)]).length = journal.length + 1 := List.length_append
  simp only [tally, fired, count_append]
  cases result with
  | error fault => simp [reschedules, removes, faults, Settlement.ofRun, TickTally.counting, ← step]
  | ok outcome =>
    cases outcome with
    | remove => simp [reschedules, removes, faults, Settlement.ofRun, TickTally.counting, Outcome.delay?, ← step]
    | again delay =>
      by_cases none : delay = .zero
      · simp [reschedules, removes, faults, Settlement.ofRun, TickTally.counting, Outcome.delay?, none, ← step]
      · simp [reschedules, removes, faults, Settlement.ofRun, TickTally.counting, Outcome.delay?, none, ← step]

end Journal

theorem Entry.toNat_ended_ofRun (t : Task κ) (result : Except Fault Outcome) :
    (Entry.ended ⟨t, some (.ofRun result)⟩).toNat =
      (Journal.removes result).toNat + (Journal.faults result).toNat := by
  cases result with
  | error fault => rfl
  | ok outcome =>
    cases outcome with
    | remove => rfl
    | again delay =>
      by_cases none : delay = .zero
      · simp [ended, survivor?, Settlement.ofRun, Outcome.delay?, Journal.removes, Journal.faults, none]
      · simp [ended, survivor?, Settlement.ofRun, Outcome.delay?, Journal.removes, Journal.faults, none]

namespace Exchange

/-- Whether a task was accepted for registration. -/
def registers : Exchange κ → Bool
  | ⟨.add .., .ok _⟩ => true
  | _ => false

/-- The handle of a task whose removal was accepted. -/
def removed? : Exchange κ → Option Handle
  | ⟨.delete handle, true⟩ => some handle
  | _ => none

theorem countP_registers (history : List (Exchange κ)) :
    ((history.filterMap change?).filterMap Change.added?).length = history.countP registers := by
  rw [List.filterMap_filterMap, List.length_filterMap_eq_countP]
  refine List.countP_congr fun e _ => ?_
  unfold change? registers
  split <;> simp [Change.added?]

theorem filterMap_removed? (history : List (Exchange κ)) :
    (history.filterMap change?).filterMap Change.deleted? = history.filterMap removed? := by
  rw [List.filterMap_filterMap]
  refine List.filterMap_congr fun e _ => ?_
  obtain ⟨q, answer⟩ := e
  cases q with
  | add key target visibility => cases answer <;> rfl
  | update handle target => cases answer <;> rfl
  | delete handle => cases answer <;> rfl
  | contains handle => rfl
  | idleTime => rfl

end Exchange

/-- The same code, which also keeps a journal of what was run. -/
def TaskCode.journaling (code : TaskCode κ ρ) : TaskCode κ (ρ × Journal κ) := fun key shared => do
  let (result, last) ← code key shared.1
  return (result, (last, shared.2 ++ [(key, result)]))

namespace Sweep

/-- A sweep with a journal. -/
def journaled (sweep : Sweep κ ρ) (journal : Journal κ) : Sweep κ (ρ × Journal κ) :=
  { pass := sweep.pass, events := sweep.events, tally := sweep.tally, shared := (sweep.shared, journal) }

/-- What holds of a sweep over tasks that keeps a journal, `rest` being the tasks ahead. -/
structure Tallied (tasks rest : List (Task κ)) (sweep : Sweep κ (ρ × Journal κ)) : Prop where
  keys : sweep.shared.2.map (·.1) ++ (rest.filter (·.isDue)).map (·.key) = (tasks.filter (·.isDue)).map (·.key)
  tally : sweep.tally = sweep.shared.2.tally
  ended : sweep.pass.visited.countP Entry.ended =
    sweep.shared.2.count Journal.removes + sweep.shared.2.count Journal.faults

theorem Tallied.skip {tasks rest : List (Task κ)} {t : Task κ} {sweep : Sweep κ (ρ × Journal κ)}
    (tallied : sweep.Tallied tasks (t :: rest)) (early : t.isDue = false) : (sweep.skip t rest).Tallied tasks rest := by
  obtain ⟨keys, tally, ended⟩ := tallied
  refine ⟨?_, tally, ?_⟩
  · simpa [Sweep.skip, List.filter_cons, early] using keys
  · simpa [Sweep.skip, Pass.passed, Entry.ended, Entry.survivor?] using ended

variable [ToString κ]

theorem run_journaling (code : TaskCode κ ρ) (key : κ) (shared : ρ) (journal : Journal κ) (p : Pass κ) :
    (code.journaling key (shared, journal)).run Pass.registry p =
      let ran := (code key shared).run Pass.registry p
      ⟨(ran.answer.1, ran.answer.2, journal ++ [(key, ran.answer.1)]), ran.state, ran.log⟩ := by
  have parts := Script.run_bind Pass.registry (code key shared)
    (fun ran => pure (ran.1, (ran.2, journal ++ [(key, ran.1)]))) p
  refine parts.trans ?_
  simp only [Reply.andThen]
  exact congrArg _ (List.append_nil _)

theorem dispatch_journaling (code : TaskCode κ ρ) (uptime : Duration) (sweep : Sweep κ ρ) (journal : Journal κ)
    (t : Task κ) (rest : List (Task κ)) :
    (sweep.journaled journal).dispatch code.journaling uptime t rest =
      let result := ((code t.key sweep.shared).run Pass.registry { sweep.pass with waiting := t :: rest }).answer.1
      let plain := sweep.dispatch code uptime t rest
      ⟨(), plain.state.journaled (journal ++ [(t.key, result)]), plain.log⟩ := by
  simp only [dispatch, journaled, run_journaling]

/-- Keeping a journal changes nothing else of a sweep. -/
theorem through_journaling (code : TaskCode κ ρ) (uptime : Duration) (tasks : List (Task κ)) (sweep : Sweep κ ρ)
    (journal : Journal κ) :
    ∃ last, through code.journaling uptime tasks (sweep.journaled journal) =
      ⟨(), (through code uptime tasks sweep).state.journaled last, (through code uptime tasks sweep).log⟩ := by
  induction tasks generalizing sweep journal with
  | nil => exact ⟨journal, rfl⟩
  | cons t rest ih =>
    by_cases due : t.isDue
    · let ran := (code t.key sweep.shared).run Pass.registry { sweep.pass with waiting := t :: rest }
      obtain ⟨last, same⟩ := ih (sweep.dispatch code uptime t rest).state (journal ++ [(t.key, ran.answer.1)])
      refine ⟨last, ?_⟩
      simp only [through, due, ↓reduceIte, dispatch_journaling, Reply.andThen, same, ran]
    · obtain ⟨last, same⟩ := ih (sweep.skip t rest) journal
      refine ⟨last, ?_⟩
      simp only [through, due, Bool.false_eq_true, ↓reduceIte]
      exact same

theorem Tallied.dispatch {tasks rest : List (Task κ)} {t : Task κ} {sweep : Sweep κ ρ} {journal : Journal κ}
    (tallied : (sweep.journaled journal).Tallied tasks (t :: rest)) (due : t.isDue = true) (code : TaskCode κ ρ)
    (uptime : Duration) :
    ((sweep.journaled journal).dispatch code.journaling uptime t rest).state.Tallied tasks rest := by
  obtain ⟨keys, tally, ended⟩ := tallied
  have visited := (Pass.run_frame (code t.key sweep.shared) { sweep.pass with waiting := t :: rest }).2.1
  simp only [journaled] at keys tally ended
  rw [dispatch_journaling]
  refine ⟨?_, ?_, ?_⟩
  · simpa [journaled, List.filter_cons, due] using keys
  · simp only [journaled, Journal.tally_append, Sweep.dispatch, tally]
  · simp only [journaled, Sweep.dispatch, Pass.passed, visited, Journal.countP_append_one, Journal.count_append,
      Entry.toNat_ended_ofRun]
    omega

end Sweep

namespace Scheduler

variable [ToString κ]

/-- What a tick runs, and how each run ends. -/
def journal (s : Scheduler κ τ) (code : TaskCode κ ρ) (shared : ρ) : Journal κ :=
  (s.tick code.journaling (shared, [])).state.2.2

theorem swept_journaling {s : Scheduler κ τ} (active : s.active = true) (code : TaskCode κ ρ) (shared : ρ) :
    (s.swept code.journaling (shared, [])).state = (s.swept code shared).state.journaled (s.journal code shared) ∧
      (s.swept code.journaling (shared, [])).log = (s.swept code shared).log := by
  obtain ⟨last, same⟩ := Sweep.through_journaling code (s.uptime + s.period) s.aged
    { pass := s.firstPass, events := s.events, tally := .none, shared } []
  have swept : s.swept code.journaling (shared, []) =
    ⟨(), (s.swept code shared).state.journaled last, (s.swept code shared).log⟩ := same
  have kept : s.journal code shared = last := by
    rw [journal, (s.tick_active active _ _).1, swept]
    rfl
  rw [swept, kept]
  exact ⟨rfl, rfl⟩

/-- Keeping a journal changes nothing else of a tick. -/
theorem tick_journaling {s : Scheduler κ τ} (active : s.active = true) (code : TaskCode κ ρ) (shared : ρ) :
    s.tick code.journaling (shared, []) =
      ⟨(s.tick code shared).answer,
        ((s.tick code shared).state.1, (s.tick code shared).state.2, s.journal code shared),
        (s.tick code shared).log⟩ := by
  obtain ⟨state, log⟩ := s.swept_journaling active code shared
  simp only [swept, firstPass, aged] at state log
  simp only [tick, active, ↓reduceIte, state, log, Sweep.journaled]

/-- The journal of a tick fits the tasks that were due, the report and the tasks that have ended. -/
theorem tallied_journal {s : Scheduler κ τ} (active : s.active = true) (code : TaskCode κ ρ) (shared : ρ) :
    ((s.swept code shared).state.journaled (s.journal code shared)).Tallied s.aged [] := by
  rw [← (swept_journaling active code shared).1]
  refine Sweep.through_induction code.journaling (s.uptime + s.period)
    (motive := fun _ rest sweep => sweep.Tallied s.aged rest) ?_ ?_ [] s.aged _ ?_
  · intro history t rest sweep early tallied
    exact tallied.skip early
  · rintro history t rest ⟨pass, events, counted, last, journal⟩ due tallied
    have before : ((⟨pass, events, counted, last⟩ : Sweep κ ρ).journaled journal).Tallied s.aged (t :: rest) := tallied
    exact before.dispatch due code _
  · exact ⟨rfl, rfl, rfl⟩

theorem length_ended_lastPass {s : Scheduler κ τ} (active : s.active = true) (code : TaskCode κ ρ) (shared : ρ) :
    (s.lastPass code shared).ended.length =
      (s.journal code shared).count Journal.removes + (s.journal code shared).count Journal.faults := by
  obtain ⟨-, done⟩ := s.underway_swept code shared
  have entries : (s.lastPass code shared).entries = (s.swept code shared).state.pass.visited := by
    rw [Pass.entries, lastPass, done, List.map_nil, List.append_nil]
  rw [Pass.ended, List.length_map, ← List.countP_eq_length_filter, entries]
  exact (tallied_journal active code shared).ended

/-- A tick leaves the tasks there were but for those that ended, and those that were accepted but for
those whose removal was. -/
theorem length_tick {s : Scheduler κ τ} (active : s.active = true) (room : s.tasks.length ≤ s.capacity)
    (code : TaskCode κ ρ) (shared : ρ) (distinct : (s.lastPass code shared).handles.Nodup) :
    (s.tick code shared).state.1.tasks.length + (s.lastPass code shared).ended.length +
        ((s.tickExchanges code shared).filterMap Exchange.removed?).countP (· ∉ (s.lastPass code shared).ended) =
      s.tasks.length + (s.tickExchanges code shared).countP Exchange.registers := by
  obtain ⟨orderly, tasks⟩ := tasks_tick_orderly active room code shared distinct
  have queue : (s.lastPass code shared).changes = (s.tickExchanges code shared).filterMap Exchange.change? :=
    Pass.changes_underway (s.underway_swept code shared).1
  have count := orderly.length_survivors distinct
  rw [queue, Exchange.filterMap_removed?, Exchange.countP_registers, length_entries_lastPass] at count
  rw [tasks]
  exact count

/-- A tick of a running scheduler runs exactly the tasks that its period makes due, in order of
registration and each once, whatever they ask for meanwhile. Its report counts how their runs ended.
Where no two tasks of the tick share a handle, as is so while handles have not been used up, the number
of tasks afterwards follows from the report and from the requests that were accepted: a removal counts
unless the task ended in the same tick. -/
theorem tick_runs_due_and_reports [TickTimer τ] (capacity : Nat) (timer : τ) (actions : List (Action κ))
    (code : TaskCode κ ρ) (shared : ρ) :
    let s : Scheduler κ τ := (empty capacity timer).run actions
    let minted := Exchange.mintedIn ((empty capacity timer : Scheduler κ τ).history actions)
    let tick := s.tick code shared
    let journal := s.journal code shared
    let due := s.tasks.filter fun t => t.target < t.position + s.period
    s.active = true → s.tasks.length ≤ TickTally.most →
      s.tick code.journaling (shared, []) = ⟨tick.answer, (tick.state.1, tick.state.2, journal), tick.log⟩ ∧
      journal.map (·.1) = due.map (·.key) ∧
      tick.answer.fired = due.length ∧
      tick.answer.fired = tick.answer.rescheduled + tick.answer.removed + tick.answer.faulted ∧
      tick.answer.rescheduled = journal.count Journal.reschedules ∧
      tick.answer.removed = journal.count Journal.removes ∧
      tick.answer.faulted = journal.count Journal.faults ∧
      ((s.lastPass code shared).handles.Nodup →
        tick.state.1.tasks.length + tick.answer.removed + tick.answer.faulted +
            ((s.tickExchanges code shared).filterMap Exchange.removed?).countP (· ∉ (s.lastPass code shared).ended) =
          s.tasks.length + (s.tickExchanges code shared).countP Exchange.registers) ∧
      (minted + Exchange.mintedIn (s.tickExchanges code shared) < Handle.numbers →
        (s.lastPass code shared).handles.Nodup) := by
  intro s minted tick journal due active few
  obtain ⟨keys, tally, -⟩ := tallied_journal active code shared
  have ran : journal.map (·.1) = due.map (·.key) := by
    have aged : (s.aged.filter (·.isDue)).map (·.key) = due.map (·.key) := by
      simp only [Scheduler.aged, List.filter_map, List.map_map]
      rfl
    rw [← aged, ← keys]
    exact (List.append_nil _).symm
  have length : journal.length = due.length := by simpa using congrArg List.length ran
  have bound : journal.length ≤ TickTally.most := by
    rw [length]
    exact Nat.le_trans (List.length_filter_le _ _) few
  have answer : tick.answer =
      ⟨journal.length, journal.count Journal.reschedules, journal.count Journal.removes,
        journal.count Journal.faults⟩ :=
    (s.tick_active active code shared).2.trans (tally.trans (Journal.tally_of_few bound))
  refine ⟨tick_journaling active code shared, ran, ?_⟩
  rw [answer]
  refine ⟨length, journal.length_eq, rfl, rfl, rfl, ?_, ?_⟩
  · intro distinct
    have room : s.tasks.length ≤ s.capacity := (room_run (Nat.zero_le _) actions).1
    rw [Nat.add_assoc tick.state.1.tasks.length, ← length_ended_lastPass active code shared]
    exact length_tick active room code shared distinct
  · intro unused
    have sound : s.Sound minted := sound_run capacity timer actions (by omega)
    exact (sound.swept code shared unused).1.distinct

/-- A task that deletes the two others and registers a new one; the last of them is due all the same
and asks to be removed. -/
def reaping : TaskCode Nat Unit
  | 0, _ => do
    let _ ← Program.delete ⟨2⟩
    let _ ← Program.delete ⟨3⟩
    let _ ← Program.add 3 (.ofMillis 5) .visible
    return (.ok (.again (.ofSeconds 1)), ())
  | _, _ => return (.ok (.again .zero), ())

theorem tick_runs_due_and_reports_reaping :
    let s : Scheduler Nat ManualTimer := (empty 4 .stopped).run threeTasks
    s.active = true ∧ s.tasks.length ≤ TickTally.most ∧ (s.lastPass reaping ()).handles.Nodup ∧
      (s.journal reaping ()).map (·.1) = [0, 2] ∧ (s.tick reaping ()).answer.fired = 2 ∧
      (s.tick reaping ()).state.1.tasks.length + 1 + 0 + 1 = 3 + 1 := by
  have few : ((empty 4 .stopped : Scheduler Nat ManualTimer).run threeTasks).tasks.length ≤ TickTally.most := by decide
  obtain ⟨-, ran, fired, -, -, -, -, length, distinct⟩ :=
    tick_runs_due_and_reports (κ := Nat) 4 ManualTimer.stopped threeTasks reaping () rfl few
  exact ⟨rfl, few, distinct (by decide), ran, fired, length (distinct (by decide))⟩

end Scheduler
end ConferenceBadge
