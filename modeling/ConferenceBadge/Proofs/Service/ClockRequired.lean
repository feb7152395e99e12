import ConferenceBadge.Proofs.Service.Attempts

/-!
The clock and a service's own setup. A clock that cannot be set is only noted, so a service that needs the clock is
set up with the clock set, or after an attempt to set it that failed (`Roster.clock_set_or_not_settable`). The latter
does happen (`Roster.not_only_with_clock_set`).
-/
namespace ConferenceBadge.Service

variable {κ σ ω ψ : Type} {handler : Handler (World σ) ω}

/-- The clock shows a valid time once it has been set, and asking for the time does not change that. -/
structure KeepsClock (handler : Handler (World σ) ω) (valid : Nat) : Prop where
  set : ∀ w, (handler .setClock w).answer = true → valid ≤ (handler .time (handler .setClock w).state).answer
  asked : ∀ w, valid ≤ (handler .time w).answer → valid ≤ (handler .time (handler .time w).state).answer

/-- The clock shows a valid time if the manifest needs it to. -/
def ClockMet (handler : Handler (World σ) ω) (valid : Nat) (manifest : Manifest) (w : ω) : Prop :=
  manifest.needsClock = true → valid ≤ (handler .time w).answer

theorem SeeksClock.met {config : Config} {manifest : Manifest} {failed : Bool} {w after : ω} {calls : List (Called σ ω)}
    (keeps : KeepsClock handler config.clockValidFrom)
    (clocks : SeeksClock handler config manifest failed w calls (.ok ()) after) :
    ClockMet handler config.clockValidFrom manifest after ∨ calls.any Called.failsToSetClock = true := by
  cases clocks with
  | unneeded idle =>
    left
    intro needed
    rw [idle] at needed
    contradiction
  | valid needed shown => exact .inl fun _ => keeps.asked w shown
  | @synced found needed shown first left =>
    cases set : (handler .setClock found).answer with
    | true => exact .inl fun _ => keeps.set found set
    | false =>
      right
      show (false || (!(handler .setClock found).answer || false)) = true
      rw [set]
      rfl

namespace Roster

/-- Whenever a service is set up whose manifest needs the clock, the clock shows a valid time, or it was tried to set
it for this app and failed. -/
theorem clock_set_or_not_settable (registry : Registry κ ψ) (handler : Handler (World σ) ω) (r : Roster σ)
    (key : TaskKey → κ) (hostDraws : Bool) (s : ψ) (w : ω) (keeps : KeepsClock handler r.config.clockValidFrom) :
    let calls : List (Called σ ω) := (r.startInstalled key hostDraws).calls registry handler s w
    let attempts := r.installing registry handler key hostDraws s w
    calls = handler.called .count w :: attempts.flatMap (·.calls) ∧
      ∀ a ∈ attempts, a.SetsUpWithin fun manifest w =>
        ClockMet handler r.config.clockValidFrom manifest w ∨ a.calls.any Called.failsToSetClock = true := by
  intro calls attempts
  obtain ⟨split, roster, looking, -⟩ := ends_startInstalled registry handler s w r key hostDraws
  refine ⟨split, looking.setsUpWithin fun a manifest found connected clocked failed wifi clock _ clocks made => ?_⟩
  refine (clocks.met keeps).imp_right fun fails => ?_
  obtain ⟨c, member, failed⟩ := List.any_eq_true.mp fails
  exact List.any_eq_true.mpr ⟨c, made member, failed⟩

/-- One app that needs the clock, which can be set or not; whether it is set is kept. -/
def oneClock (settable : Bool) : Handler (World Unit) Bool
  | .count, w => ⟨.ok 1, w, []⟩
  | .name _, w => ⟨AppName.ofString? "clock", w, []⟩
  | .manifest _ _, w => ⟨.ok (Manifest.needing false none true), w, []⟩
  | .service _, w => ⟨.ok (), w, []⟩
  | .connected, w | .connect, w => ⟨true, w, []⟩
  | .setClock, _ => ⟨settable, settable, []⟩
  | .time, w => ⟨if w then Config.standard.clockValidFrom else 0, w, []⟩
  | .height, w => ⟨0, w, []⟩
  | .setUp _, w => ⟨(.ok (), ()), w, []⟩
  | .loop _, w => ⟨(.ok .remove, ()), w, []⟩
  | .draw _ _, w => ⟨(.error .notProvided, ()), w, []⟩
  | .beginDrawing, w | .endDrawing, w => ⟨(), w, []⟩

theorem keepsClock_oneClock (settable : Bool) : KeepsClock (oneClock settable) Config.standard.clockValidFrom := by
  refine ⟨fun w set => ?_, fun w shown => shown⟩
  obtain rfl : settable = true := set
  exact Nat.le_refl _

/-- A clock that can be set is set before the service is. -/
theorem clock_set_or_not_settable_oneClock :
    let r : Roster Unit := empty 8 .standard
    let attempts := r.installing Scheduler.registry (oneClock true) Key.service false almostFull false
    KeepsClock (oneClock true) r.config.clockValidFrom ∧ (attempts.any fun a => a.calls.any Called.setsUp) = true ∧
      ∀ a ∈ attempts, a.SetsUpWithin fun manifest w =>
        ClockMet (oneClock true) r.config.clockValidFrom manifest w ∨ a.calls.any Called.failsToSetClock = true := by
  intro r attempts
  have keeps : KeepsClock (oneClock true) r.config.clockValidFrom := keepsClock_oneClock true
  exact ⟨keeps, by decide +kernel,
    (clock_set_or_not_settable Scheduler.registry (oneClock true) r Key.service false almostFull false keeps).2⟩

/-- A clock that cannot be set does not keep a service that needs it from being set up. -/
theorem not_only_with_clock_set :
    let r : Roster Unit := empty 8 .standard
    let attempts := r.installing Scheduler.registry (oneClock false) Key.service false almostFull false
    KeepsClock (oneClock false) r.config.clockValidFrom ∧
      ¬ ∀ a ∈ attempts, a.SetsUpWithin (ClockMet (oneClock false) r.config.clockValidFrom) := by
  intro r attempts
  refine ⟨keepsClock_oneClock false, fun all => ?_⟩
  have unset : ∃ a ∈ attempts, ∃ c ∈ a.calls, Called.setsUp c = true ∧ (a.manifest?.any (·.needsClock)) = true ∧
      c.before = false := by decide +kernel
  obtain ⟨a, among, c, member, setsUp, needed, before⟩ := unset
  obtain ⟨service, call⟩ := Called.setsUp_iff.mp setsUp
  obtain ⟨-, manifest, read, met⟩ := all a among c member service call
  rw [read] at needed
  have shown := met needed
  rw [before] at shown
  contradiction

end Roster
end ConferenceBadge.Service
