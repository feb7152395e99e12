import ConferenceBadge.Proofs.Badge.Ownership
import ConferenceBadge.Proofs.Badge.SleepScreen
import ConferenceBadge.Proofs.Session.Course

/-!
Sleep in a session. The session knows that its badge is asleep, the scheduler is stopped, the timer delivers
no ticks and the panel is set to the sleep screen: these four always agree (`Settled`, `sleep_consistent`),
and nothing but a new boot changes what a sleeping badge shows (`Course.asleep`).
-/
namespace ConferenceBadge.Console.Session

/-- What a session and its badge agree on after every step. -/
structure Settled (s : Session) : Prop where
  fitted : s.badge.shared.Fitted
  unasked : s.badge.shared.body.sleep = none
  awake : s.asleep = none → s.badge.scheduler.active = true ∧ s.badge.panel.screen = .home
  asleep : s.asleep ≠ none → s.badge.scheduler.active = false ∧ s.badge.panel.screen = .sleeping ∧
    s.badge.panel.front.Bears .sleeping

namespace Settled

variable {s : Session}

theorem booted (store : AppStore) (distinct : AppStore.Distinct store.names) (now : Int) (radio : Radio)
    (period : Duration) (badge : s.badge = (Emulator.boot store now radio s.options.power period).state)
    (awake : s.asleep = none) : s.Settled := by
  obtain ⟨fitted, unasked, home⟩ := Emulator.boot_home distinct now radio s.options.power period
  have active := (Emulator.boot_ticks store now radio s.options.power period).2
  rw [← badge] at fitted unasked home active
  exact ⟨fitted, unasked, fun _ => ⟨active, home⟩, fun asleep => absurd awake asleep⟩

/-- A badge that stays on ticks, and falls asleep where it has asked for sleep. -/
theorem stayed (settled : s.Settled) (awake : s.asleep = none) (around : Surroundings) :
    (s.stayOn around).state.Settled := by
  obtain ⟨active, home⟩ := settled.awake awake
  obtain ⟨fitted, agrees⟩ := Emulator.matches_tick settled.fitted (.inl ⟨settled.unasked, home⟩) around.now
  have running := (Scheduler.active_of_pace (s.badge.pace_tick around.now)).trans active
  cases asked : (s.badge.tick around.now).state.shared.body.sleep with
  | none =>
    simp only [stayOn, Emulator.takeSleep, asked]
    rcases agrees with ⟨-, home⟩ | ⟨sleeping, -⟩
    · exact ⟨fitted, asked, fun _ => ⟨running, home⟩, fun asleep => absurd awake asleep⟩
    · rw [asked] at sleeping
      contradiction
  | some request =>
    simp only [stayOn, Emulator.takeSleep, asked]
    rcases agrees with ⟨none, -⟩ | ⟨-, screen, shows⟩
    · rw [asked] at none
      contradiction
    · exact ⟨⟨fitted.hook, fitted.drawers⟩, rfl, fun awake => by contradiction, fun _ => ⟨rfl, screen, shows⟩⟩

end Settled

variable {first s : Session} {earlier : List Moment}

/-- Every step of a session whose apps have distinct names keeps session and badge in agreement. -/
theorem Course.settled (course : Course first earlier s) (distinct : AppStore.Distinct first.apps)
    (begun : first.Settled) : s.Settled := by
  induction course with
  | begun => exact begun
  | noted earlier clock transcript ih => exact ⟨ih.fitted, ih.unasked, ih.awake, ih.asleep⟩
  | @restarted moments s earlier asleep sleeping around ih =>
    have same : (s.store around).names = first.apps := earlier.kept.2
    exact .booted (s.store around) (same ▸ distinct) around.now s.badge.radio.afterSleep s.options.period rfl rfl
  | @dozed moments s earlier asleep sleeping left ih =>
    have sleeps : s.asleep ≠ none := fun awake => by
      rw [sleeping] at awake
      contradiction
    exact ⟨ih.fitted, ih.unasked, fun awake => by contradiction, fun _ => ih.asleep sleeps⟩
  | stayed earlier awake around ih => exact ih.stayed awake around
  | @pressed moments s earlier awake ih =>
    obtain ⟨active, home⟩ := ih.awake awake
    have running := (Scheduler.active_of_pace s.badge.pace_press).trans active
    exact ⟨Emulator.fitted_press ih.fitted, ih.unasked, fun _ => ⟨running, home⟩, fun asleep => absurd awake asleep⟩
  | tuned earlier inRange ih => exact ⟨⟨ih.fitted.hook, ih.fitted.drawers⟩, ih.unasked, ih.awake, ih.asleep⟩
  | @drawn moments s earlier awake now ih =>
    obtain ⟨active, -⟩ := ih.awake awake
    obtain ⟨home, -, few⟩ := s.badge.shared.body.drawScreen_shows .home now ih.fitted.drawers
    exact ⟨⟨ih.fitted.hook, few⟩, ih.unasked, fun _ => ⟨active, home⟩, fun asleep => absurd awake asleep⟩

/-- Until the next boot a sleeping badge sleeps on, and shows what it shows. -/
theorem Course.asleep (course : Course first earlier s) (sleeping : first.isAsleep = true) :
    first.boots < s.boots ∨
      s.boots = first.boots ∧ s.isAsleep = true ∧ s.badge.panel = first.badge.panel := by
  -- What only a badge that is awake can do is done after a boot.
  have booted {t : Session} (awake : t.asleep = none)
      (ih : first.boots < t.boots ∨ t.boots = first.boots ∧ t.isAsleep = true ∧ t.badge.panel = first.badge.panel) :
      first.boots < t.boots := by
    rcases ih with later | ⟨-, asleep, -⟩
    · exact later
    · rw [isAsleep, awake] at asleep
      contradiction
  induction course with
  | begun => exact .inr ⟨rfl, sleeping, rfl⟩
  | noted earlier clock transcript ih => exact ih
  | @restarted moments s earlier asleep sleeps around ih =>
    refine .inl (Nat.lt_succ_of_le ?_)
    rcases ih with later | ⟨same, -⟩
    · exact Nat.le_of_lt later
    · exact Nat.le_of_eq same.symm
  | dozed earlier sleeps left ih => exact ih.imp_right fun ⟨same, _, panel⟩ => ⟨same, rfl, panel⟩
  | @stayed moments s earlier awake around ih =>
    rw [(stayOn_frame s around).2.2.2]
    exact .inl (booted awake ih)
  | @pressed moments s earlier awake ih => exact .inl (booted (t := s) awake ih)
  | tuned earlier inRange ih => exact ih
  | @drawn moments s earlier awake now ih => exact .inl (booted (t := s) awake ih)

/-- A session and its badge agree about sleep: the session is asleep just where the scheduler is stopped,
where the timer delivers no ticks, and where the panel is set to the sleep screen, whose two lines show then;
awake, the timer runs at the scheduler's period and nobody has asked for sleep. -/
structure SleepAgrees (s : Session) : Prop where
  stopped : s.isAsleep = true ↔ s.badge.scheduler.active = false
  silent : s.isAsleep = true ↔ s.badge.scheduler.timer.running = none
  screen : s.isAsleep = true ↔ s.badge.panel.screen = .sleeping
  shown : s.isAsleep = true → s.badge.panel.front.rows.lookup 0 = some "Sleeping..." ∧
    s.badge.panel.front.rows.lookup 16 = some "Press any key to wake up"
  ticking : s.isAsleep = false → s.badge.scheduler.timer.running = some s.badge.scheduler.period
  unasked : s.isAsleep = false → s.badge.shared.body.sleep = none

theorem Settled.agrees (settled : s.Settled) (ticks : s.badge.scheduler.Ticks) : s.SleepAgrees := by
  have timer := ticks.timer
  cases asleep : s.asleep with
  | none =>
    have awake : s.isAsleep = false := by rw [isAsleep, asleep]; rfl
    obtain ⟨active, home⟩ := settled.awake asleep
    rw [active, if_pos rfl] at timer
    refine ⟨?_, ?_, ?_, ?_, fun _ => timer, fun _ => settled.unasked⟩
    · simp [awake, active]
    · simp [awake, timer]
    · simp [awake, home]
    · simp [awake]
  | some sleeping =>
    have sleeps : s.isAsleep = true := by rw [isAsleep, asleep]; rfl
    obtain ⟨stopped, screen, shows⟩ := settled.asleep (by simp [asleep])
    rw [stopped, if_neg Bool.false_ne_true] at timer
    refine ⟨?_, ?_, ?_, fun _ => ⟨?_, ?_⟩, ?_, ?_⟩
    · simp [sleeps, stopped]
    · simp [sleeps, timer]
    · simp [sleeps, screen]
    · rw [shows 0 (by decide)]
      decide
    · rw [shows 16 (by decide)]
      decide
    · simp [sleeps]
    · simp [sleeps]

/-- Whatever is typed in a session whose apps have distinct names, session and badge agree about sleep, and
what is typed while the badge sleeps leaves the panel as it is until the next boot. The hook before sleep never
finds the panel blank. -/
theorem sleep_consistent (options : Options) (transcript : Option Transcript) (around : Surroundings)
    (distinct : AppStore.Distinct (start options transcript around).state.apps)
    (inputs : List (Surroundings × String)) :
    let s := (start options transcript around).state.after inputs
    s.SleepAgrees ∧
      (s.isAsleep = true → ∀ more, s.boots < (s.after more).boots ∨
        (s.after more).boots = s.boots ∧ (s.after more).isAsleep = true ∧ (s.after more).badge.panel = s.badge.panel) ∧
      ∀ (b : Body) (idle : IdleTime) (now : Int), (b.drawSleepScreen idle now).answer = .ok () := by
  let store := AppStore.ofRoot options.root (around.filesWith transcript)
  have course := (show Course (start options transcript around).state [] _ from .begun).after inputs
  have begun : (start options transcript around).state.Settled :=
    .booted store distinct around.now (.off options.wifi) options.period rfl rfl
  have reached := course.reached (.booted store around.now (.off options.wifi) options.period)
  refine ⟨(course.settled distinct begun).agrees reached.ticks, ?_, Body.drawSleepScreen_ok⟩
  intro asleep more
  exact (Course.begun.after more).asleep asleep

/-- A session with a clock and a counter, whose badge asks for sleep in the second tick. -/
def napping : Session :=
  (start { Options.standard with root := .ofText ".", power := ⟨.ofMillis 15, .ofMillis 100⟩ } none
    { Surroundings.nothing with files := AppStore.clockAndCounter.files }).state

theorem sleep_consistent_napping :
    AppStore.Distinct napping.apps ∧ (napping.after (typed ["tick 2"])).isAsleep = true ∧
      (napping.after (typed ["tick 2"])).badge.panel.front.rows =
        [(0, "Sleeping..."), (16, "Press any key to wake up"), (112, "00:00 UTC")] ∧
      (napping.after (typed ["tick 2"])).SleepAgrees ∧
      ((napping.after (typed ["tick 2"])).after (typed ["wifi off", "draw", "tick 3"])).badge.panel =
        (napping.after (typed ["tick 2"])).badge.panel := by
  have apps : napping.apps = some ["clock", "counter"] := by decide +kernel
  have distinct : AppStore.Distinct napping.apps := by
    rw [apps]
    show ["clock", "counter"].Nodup
    decide
  have asleep : (napping.after (typed ["tick 2"])).isAsleep = true := by decide +kernel
  have boots : ((napping.after (typed ["tick 2"])).after (typed ["wifi off", "draw", "tick 3"])).boots =
      (napping.after (typed ["tick 2"])).boots := by decide +kernel
  obtain ⟨agrees, sleeps, -⟩ := sleep_consistent _ none _ distinct (typed ["tick 2"])
  refine ⟨distinct, asleep, by decide +kernel, agrees, ?_⟩
  rcases sleeps asleep (typed ["wifi off", "draw", "tick 3"]) with later | ⟨-, -, panel⟩
  · exact absurd boots (Nat.ne_of_gt later)
  · exact panel

end ConferenceBadge.Console.Session
