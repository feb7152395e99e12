import ConferenceBadge.Proofs.Badge.Drawers
import ConferenceBadge.Proofs.Badge.Ticks

/-!
The panel and sleep. As long as the badge has not asked for sleep its panel is set to the home screen.
Asking runs the hook, which puts the sleep screen there, and whatever is drawn afterwards in the same tick
leaves the two lines of the sleep screen (`SharedState.ensures_code_matches`).
-/
namespace ConferenceBadge

/-- The panel goes with the request for sleep: it is set to the home screen while there is none, and shows
the sleep screen once there is one. -/
def Body.Matches (b : Body) : Prop :=
  (b.sleep = none ∧ b.devices.panel.screen = .home) ∨
    (b.sleep.isSome = true ∧ b.devices.panel.screen = .sleeping ∧ b.devices.panel.front.Bears .sleeping)

/-- The hook before sleep is in place, and few services draw. -/
structure SharedState.Fitted (s : SharedState) : Prop where
  hook : s.manager.hook = some .sleepScreen
  drawers : Service.Slot.drawers s.body.roster.slots s.body.roster.drawList ≤ 2

namespace SharedState

variable {s : SharedState}

/-- Every task of the emulated badge keeps the panel in step with the request for sleep. -/
theorem ensures_code_matches (now : Int) (key : Key) (p : Pass Key) (fitted : s.Fitted) (agrees : s.body.Matches) :
    Program.Ensures Pass.registry (Interface.anyone .silent) (fun ran _ => ran.2.Fitted ∧ ran.2.body.Matches)
      (code now key s) p := by
  obtain ⟨hook, drawers⟩ := fitted
  cases key with
  | power =>
    simp only [code, Program.ensures_bind]
    cases long : p.idleTime.longerThan s.manager.config.sleepThreshold with
    | true =>
      refine (Power.Manager.ensures_run_asleep long (Body.platform now) s.body).mono ?_
      rintro _ p ⟨rfl, rfl⟩
      have hooked : s.manager.hooked (Body.platform now) p.idleTime s.body = (s.body.drawScreen .sleeping now).state := by
        simp only [Power.Manager.hooked, hook, Option.elim_some, Body.platform, Body.drawSleepScreen]
        split <;> rfl
      obtain ⟨screen, shows, few⟩ := s.body.drawScreen_shows .sleeping now drawers
      rw [← hooked] at screen shows few
      exact ⟨⟨hook, few⟩, .inr ⟨rfl, screen, shows⟩⟩
    | false =>
      refine (Power.Manager.ensures_run_awake long (Body.platform now) s.body).mono ?_
      rintro _ _ ⟨rfl, rfl⟩
      exact ⟨⟨hook, drawers⟩, agrees⟩
  | service task =>
    cases task with
    | loop slot =>
      simp only [code, Program.ensures_bind]
      refine (Service.Roster.ensures_loopOnce_served s.body.roster slot now s.body.devices).mono ?_
      rintro ⟨⟨result, roster⟩, devices⟩ _ ⟨rfl, panel, drawings, list⟩
      refine ⟨⟨hook, ?_⟩, ?_⟩
      · show Service.Slot.drawers roster.slots roster.drawList ≤ 2
        rw [Service.Slot.drawers_congr drawings, list]
        exact drawers
      · simp only [Body.Matches] at panel agrees ⊢
        rw [panel]
        exact agrees
    | draw =>
      simp only [code, Program.ensures_bind]
      refine (Service.Roster.ensures_drawScheduled_served s.body.roster now s.body.devices drawers).mono ?_
      rintro ⟨⟨outcome, roster⟩, devices⟩ _ ⟨rfl, screen, shows, fewer⟩
      refine ⟨⟨hook, Nat.le_trans fewer drawers⟩, ?_⟩
      -- Behind the power manager's task this draws over the sleep screen, and leaves its lines.
      rcases agrees with ⟨awake, home⟩ | ⟨asked, sleeping, -⟩
      · exact .inl ⟨awake, screen.trans home⟩
      · exact .inr ⟨asked, screen.trans sleeping, sleeping ▸ shows⟩

end SharedState

namespace Emulator

variable {e : Emulator}

/-- A tick keeps the panel in step with the request for sleep. -/
theorem matches_tick (fitted : e.shared.Fitted) (agrees : e.shared.body.Matches) (now : Int) :
    (e.tick now).state.shared.Fitted ∧ (e.tick now).state.shared.body.Matches :=
  Scheduler.shared_tick (motive := fun s : SharedState => s.Fitted ∧ s.body.Matches)
    (fun key _ p before => Script.ensures_run (SharedState.ensures_code_matches now key p before.1 before.2))
    e.scheduler ⟨fitted, agrees⟩

theorem fitted_press (fitted : e.shared.Fitted) : e.press.state.shared.Fitted := by
  obtain ⟨handle, same⟩ := Power.Manager.run_postpone_frame (m := e.manager) (s := e.scheduler)
  exact ⟨(congrArg Power.Manager.hook same).trans fitted.hook, fitted.drawers⟩

/-- After boot the panel is set to the home screen, and no sleep has been asked for. -/
theorem boot_home {store : AppStore} (distinct : AppStore.Distinct store.names) (now : Int) (radio : Radio)
    (power : Power.Config) (period : Duration) :
    (boot store now radio power period).state.shared.Fitted ∧
      (boot store now radio power period).state.shared.body.sleep = none ∧
      (boot store now radio power period).state.panel.screen = .home := by
  have fitted : (boot store now radio power period).state.shared.Fitted := by
    obtain ⟨started, same, manager, -⟩ := boot_started store now radio power period
    have drawers := drawers_boot distinct now radio power period
    rw [same] at drawers ⊢
    exact fitted_press ⟨by rw [show started.shared.manager = _ from manager]; rfl, drawers⟩
  -- Whatever the services call on, nobody but the badge itself sets the screen.
  have home := Program.run_kept Scheduler.registry (Devices.world now store)
    (motive := fun _ (devices : Devices) => devices.panel.screen = .home) (fun _ _ _ home => home)
    (fun c _ devices home => by cases c <;> exact home)
    ((Service.Roster.empty Service.Roster.defaultCapacity .standard).startInstalled Key.service true)
    (s := (startTicks period).state) (w := ⟨.blank, radio⟩) rfl
  refine ⟨fitted, rfl, ?_⟩
  simp only [boot, postpone, panel]
  split <;> exact home

end Emulator
end ConferenceBadge
