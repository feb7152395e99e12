import ConferenceBadge.Proofs.Badge.Reached
import ConferenceBadge.Proofs.Scheduler.IdleTime

/-!
Requests for sleep. The power manager's task asks in the middle of a tick, before the tasks behind it
have run. Where the idle time that it is told is longer than any threshold, no visible task waits that
is due, so what is still to come in the tick concerns hidden tasks only and leaves the idle time as it
is (`asked_dispatched`). A request is therefore for just as long as the badge stays idle after the tick.
-/
namespace ConferenceBadge

/-- A request for sleep fits: the power manager's task was due in the tick, the badge stays idle beyond
the threshold after the tick, and the request is for just that time, so not past the next visible task. -/
structure SleepFits {τ : Type} (power : Power.Config) (before after : Scheduler Key τ)
    (sleep : Option Power.SleepRequest) : Prop where
  due : ∃ t ∈ before.tasks, t.key = .power ∧ (t.aged before.period).isDue = true
  idle : after.idleTime.longerThan power.sleepThreshold = true
  exact : sleep = some ⟨after.idleTime.duration?⟩
  inTime : ∀ t ∈ after.tasks, t.visibility = .visible → ∃ d, sleep = some ⟨some d⟩ ∧ d ≤ t.left

namespace Ledger

variable {l : Ledger} {idle : IdleTime} {settlement : Settlement} {key : Key}

/-- The power manager's task asks for sleep where it is told that the badge stays idle for long. -/
theorem sleep_after_asking (power : key = .power) (long : idle.longerThan l.config.sleepThreshold = true) :
    (l.after idle settlement key).sleep = some ⟨idle.duration?⟩ := by
  subst power
  simp only [after, long, ↓reduceIte]

theorem same_after_other (settlement : Settlement)
    (other : ¬ (key = .power ∧ idle.longerThan l.config.sleepThreshold = true)) :
    (l.after idle settlement key).requests = l.requests ∧ (l.after idle settlement key).sleep = l.sleep := by
  unfold after
  split
  · split
    · next long => exact absurd ⟨rfl, long⟩ other
    · exact ⟨rfl, rfl⟩
  · split <;> exact ⟨rfl, rfl⟩
  · split <;> exact ⟨rfl, rfl⟩

/-- What is known of a ledger once a request for sleep has been made in a tick over `aged`. -/
def Asked (aged tasks : List (Task Key)) (l : Ledger) : Prop :=
  (∃ t ∈ aged, t.key = .power ∧ t.isDue = true) ∧
    (Task.idleTime tasks).longerThan l.config.sleepThreshold = true ∧
    l.sleep = some ⟨(Task.idleTime tasks).duration?⟩

/-- Running a task asks for sleep, or leaves a request that fits as it is, or asks for nothing. -/
theorem asked_dispatched {aged kept rest : List (Task Key)} {t : Task Key} {l : Ledger} (settlement : Settlement)
    (member : t ∈ aged) (due : t.isDue = true)
    (before : l.Asked aged (kept ++ t :: rest) ∨
      t.key = .power ∧ (Task.idleTime (kept ++ t :: rest)).longerThan l.config.sleepThreshold = true) :
    (l.after (Task.idleTime (kept ++ t :: rest)) settlement t.key).Asked aged
      (kept ++ (Entry.survivor? ⟨t, some settlement⟩).toList ++ rest) := by
  have long : (Task.idleTime (kept ++ t :: rest)).longerThan l.config.sleepThreshold = true := by
    rcases before with ⟨-, long, -⟩ | ⟨-, long⟩ <;> exact long
  have hidden := Task.hidden_of_due (List.mem_append_right kept List.mem_cons_self) due long
  -- What becomes of a hidden task leaves the idle time as it is.
  have same : Task.idleTime (kept ++ (Entry.survivor? ⟨t, some settlement⟩).toList ++ rest) =
      Task.idleTime (kept ++ t :: rest) := by
    have alone : Task.idleTime (kept ++ t :: rest) = Task.idleTime (kept ++ rest) := by
      rw [List.append_cons, Task.idleTime_hidden fun u member => List.mem_singleton.mp member ▸ hidden]
    rw [alone]
    refine Task.idleTime_hidden fun u member => ?_
    cases settlement with
    | again target =>
      obtain rfl := List.mem_singleton.mp member
      exact hidden
    | removed => contradiction
    | faulted => contradiction
  rw [Asked, same, config_after]
  by_cases asking : t.key = .power ∧ (Task.idleTime (kept ++ t :: rest)).longerThan l.config.sleepThreshold = true
  · exact ⟨⟨t, member, asking.1, due⟩, long, sleep_after_asking asking.1 long⟩
  · obtain ⟨power, -, sleep⟩ := before.resolve_right asking
    exact ⟨power, long, (same_after_other settlement asking).2.trans sleep⟩

end Ledger

/-- Where a tick asks for sleep, the request fits. -/
theorem Conducts.sleepFits {ρ τ : Type} {display : Bool} {ledger : ρ → Ledger} {code : TaskCode Key ρ}
    (conducts : Conducts display ledger code) (s : Scheduler Key τ) {shared : ρ}
    (steady : (ledger shared).Steady display)
    (asked : (ledger (s.tick code shared).state.2).requests ≠ (ledger shared).requests ∨
      (ledger (s.tick code shared).state.2).sleep ≠ (ledger shared).sleep) :
    SleepFits (ledger shared).config s (s.tick code shared).state.1 (ledger (s.tick code shared).state.2).sleep := by
  cases active : s.active with
  | false =>
    rw [(s.tick_stopped active code shared).1] at asked
    rcases asked with counted | slept
    · contradiction
    · contradiction
  | true =>
    obtain ⟨config, -, left⟩ := conducts.tick active steady
      (motive := fun kept rest l _ => l.config = (ledger shared).config ∧ rest ⊆ s.aged ∧
        ((l.requests = (ledger shared).requests ∧ l.sleep = (ledger shared).sleep) ∨ l.Asked s.aged (kept ++ rest)))
      (by
        rintro kept t rest l tally early ⟨config, ahead, before⟩
        refine ⟨config, fun u member => ahead (List.mem_cons_of_mem t member), ?_⟩
        rw [← List.append_cons]
        exact before)
      (by
        rintro kept t rest l tally settlement due - - ⟨config, ahead, before⟩
        have member : t ∈ s.aged := ahead List.mem_cons_self
        refine ⟨Ledger.config_after.trans config, fun u member => ahead (List.mem_cons_of_mem t member), ?_⟩
        by_cases asking : t.key = .power ∧
            (Task.idleTime (kept ++ t :: rest)).longerThan l.config.sleepThreshold = true
        · exact .inr (Ledger.asked_dispatched settlement member due (.inr asking))
        · rcases before with ⟨requests, sleep⟩ | asked
          · obtain ⟨same, still⟩ := Ledger.same_after_other settlement asking
            exact .inl ⟨same.trans requests, still.trans sleep⟩
          · exact .inr (Ledger.asked_dispatched settlement member due (.inl asked)))
      ⟨rfl, List.Subset.refl _, .inl ⟨rfl, rfl⟩⟩
    have unchanged : ¬ ((ledger (s.tick code shared).state.2).requests = (ledger shared).requests ∧
        (ledger (s.tick code shared).state.2).sleep = (ledger shared).sleep) := by
      rintro ⟨requests, sleep⟩
      rcases asked with counted | slept
      · exact counted requests
      · exact slept sleep
    obtain ⟨⟨t, member, key, due⟩, long, sleep⟩ := left.resolve_left unchanged
    rw [List.append_nil] at long sleep
    rw [config] at long
    obtain ⟨u, there, rfl⟩ := List.mem_map.mp member
    refine ⟨⟨u, there, key, due⟩, long, sleep, ?_⟩
    intro t member visible
    obtain ⟨d, same, less⟩ := Task.idleTime_le member visible
    exact ⟨d, by rw [sleep, same]; rfl, less⟩

/-- In every state that the emulated badge or the badge on its board can come to: where a tick asks for
sleep, the power manager's task was due in it, the badge stays idle beyond the threshold after the tick,
and the request is for just that idle time, which no visible task outlasts. -/
theorem sleep_request_fits (power : Power.Config) :
    (∀ e, Emulator.Reached power e → ∀ now,
      (e.tick now).state.manager.requests ≠ e.manager.requests ∨
        (e.tick now).state.shared.body.sleep ≠ e.shared.body.sleep →
      SleepFits power e.scheduler (e.tick now).state.scheduler (e.tick now).state.shared.body.sleep) ∧
    ∀ b, Board.Badge.Reached power b →
      b.tick.state.shared.manager.requests ≠ b.shared.manager.requests ∨
        b.tick.state.shared.sleep ≠ b.shared.sleep →
      SleepFits power b.scheduler b.tick.state.scheduler b.tick.state.shared.sleep := by
  constructor
  · intro e reached now asked
    obtain ⟨rfl, steady⟩ := reached.steady
    exact (SharedState.conducts now).sleepFits e.scheduler steady asked
  · intro b reached asked
    obtain ⟨rfl, steady⟩ := reached.steady
    exact Board.SharedState.conducts.sleepFits b.scheduler steady asked

/-- A power configuration with which a badge falls asleep in its first tick. -/
def Power.Config.drowsy : Power.Config := ⟨.ofMillis 5, .ofMillis 100⟩

/-- An emulated badge without services, which has nothing to wait for. -/
def Emulator.drowsy : Emulator := (boot .absent 0 (.off false) .drowsy (.ofMillis 10)).state

/-- A badge on its board, whose heartbeat is due in the first tick and again a second later. -/
def Board.Badge.drowsy : Badge := (boot .stopped .zero .drowsy).state

theorem sleep_request_fits_drowsy :
    Emulator.Reached .drowsy .drowsy ∧ (Emulator.drowsy.tick 0).state.manager.requests ≠ Emulator.drowsy.manager.requests ∧
      SleepFits .drowsy Emulator.drowsy.scheduler (Emulator.drowsy.tick 0).state.scheduler (some ⟨none⟩) ∧
      Board.Badge.Reached .drowsy .drowsy ∧
      Board.Badge.drowsy.tick.state.shared.manager.requests ≠ Board.Badge.drowsy.shared.manager.requests ∧
      SleepFits .drowsy Board.Badge.drowsy.scheduler Board.Badge.drowsy.tick.state.scheduler
        (some ⟨some (.ofMillis 1000)⟩) := by
  obtain ⟨emulator, board⟩ := sleep_request_fits .drowsy
  have asked : (Emulator.drowsy.tick 0).state.manager.requests ≠ Emulator.drowsy.manager.requests := by
    decide +kernel
  have slept : (Emulator.drowsy.tick 0).state.shared.body.sleep = some ⟨none⟩ := by decide +kernel
  have counted : Board.Badge.drowsy.tick.state.shared.manager.requests ≠
      Board.Badge.drowsy.shared.manager.requests := by decide +kernel
  have napped : Board.Badge.drowsy.tick.state.shared.sleep = some ⟨some (.ofMillis 1000)⟩ := by decide +kernel
  have fits := emulator .drowsy (.booted .absent 0 (.off false) (.ofMillis 10)) 0 (.inl asked)
  have fitting := board .drowsy (.booted .stopped .zero) (.inl counted)
  rw [slept] at fits
  rw [napped] at fitting
  exact ⟨.booted .absent 0 (.off false) (.ofMillis 10), asked, fits, .booted .stopped .zero, counted, fitting⟩

end ConferenceBadge
