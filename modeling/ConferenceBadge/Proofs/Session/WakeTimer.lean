import ConferenceBadge.Proofs.Badge.Ownership
import ConferenceBadge.Proofs.Badge.SleepRequest
import ConferenceBadge.Proofs.Session.Period

/-!
The wake timer. The ticks and presses of a session are told with the session before and after each
(`Session.beats`), however they are spread over commands; what is typed in between leaves the sleep of the badge
alone (`Passing`). While the badge sleeps, what is left on its wake timer and the ticks since it fell asleep make
up the time asked for (`Counting`). So it wakes with the first tick that covers that time, and sleeps until a press
where no time was asked for (`wakes_when_due`).
-/
namespace ConferenceBadge

theorem IdleTime.lt_of_longerThan {idle : IdleTime} {threshold d : Duration} (long : idle.longerThan threshold = true)
    (limited : idle.duration? = some d) : threshold < d := by
  cases idle with
  | lasting left =>
    obtain rfl := Option.some.inj limited
    exact of_decide_eq_true long
  | forever => contradiction

namespace Console

/-- A tick that is delivered, or a press, with the session before and after it. -/
inductive Beat where
  | ticked (before after : Session)
  | pressed (before after : Session)

def Beat.isTick : Beat → Bool
  | ticked .. => true
  | pressed .. => false

namespace Session

/-- So many ticks, one after the other. -/
def ticking (around : Surroundings) (period : Duration) : Nat → Session → List Beat
  | 0, _ => []
  | n + 1, s =>
    .ticked s (s.elapse around period).state :: ticking around period n (s.elapse around period).state

/-- The ticks and presses of a command. -/
def commanded (s : Session) (around : Surroundings) : Command → List Beat
  | .advance d => s.ticking around s.badge.scheduler.period (ticksFor d s.badge.scheduler.period)
  | .tick count => s.ticking around s.badge.scheduler.period count
  | .press => [.pressed s (s.press around).state]
  | .tasks | .services | .events | .idle | .wifi _ | .draw | .screen | .help _ => []

/-- The ticks and presses of a line. -/
def beaten (s : Session) (around : Surroundings) (line : String) : List Beat :=
  let line := Text.trim line
  if line = "" then []
  else
    match Command.parse line with
    | .ok command => (s.write .host [line]).commanded around command
    | .error _ => []

/-- The ticks and presses of some lines, each with what the session finds around it then. -/
def beats : Session → List (Surroundings × String) → List Beat
  | _, [] => []
  | s, (around, line) :: rest => s.beaten around line ++ (s.handle around line).state.beats rest

/-- Between ticks and presses nothing happens to the sleep of a badge. -/
structure Undisturbed (s t : Session) : Prop where
  asleep : t.asleep = s.asleep
  boots : t.boots = s.boots
  clock : t.clock = s.clock

theorem Undisturbed.refl (s : Session) : Undisturbed s s := ⟨rfl, rfl, rfl⟩

theorem Undisturbed.trans {s t u : Session} (first : Undisturbed s t) (rest : Undisturbed t u) : Undisturbed s u :=
  ⟨rest.asleep.trans first.asleep, rest.boots.trans first.boots, rest.clock.trans first.clock⟩

/-- A session comes to another one with these ticks and presses. -/
inductive Passing (options : Options) : Session → List Beat → Session → Prop
  | still {s last : Session} (same : Undisturbed s last) : Passing options s [] last
  | ticked {s before last : Session} {beats : List Beat} (same : Undisturbed s before) (proper : Proper options before)
      (around : Surroundings) (rest : Passing options (before.elapse around options.tickPeriod).state beats last) :
      Passing options s (.ticked before (before.elapse around options.tickPeriod).state :: beats) last
  | pressed {s before after last : Session} {beats : List Beat} (same : Undisturbed s before)
      (rest : Passing options after beats last) : Passing options s (.pressed before after :: beats) last

namespace Passing

variable {options : Options} {s t last : Session} {beats more : List Beat}

theorem from_undisturbed (same : Undisturbed s t) (passing : Passing options t beats last) :
    Passing options s beats last := by
  cases passing with
  | still later => exact .still (same.trans later)
  | ticked later proper around rest => exact .ticked (same.trans later) proper around rest
  | pressed later rest => exact .pressed (same.trans later) rest

theorem append (first : Passing options s beats t) (rest : Passing options t more last) :
    Passing options s (beats ++ more) last := by
  induction first with
  | still same => exact rest.from_undisturbed same
  | ticked same proper around _ ih => exact .ticked same proper around (ih rest)
  | pressed same _ ih => exact .pressed same (ih rest)

theorem to_undisturbed (passing : Passing options s beats t) (same : Undisturbed t last) :
    Passing options s beats last := by
  have whole := passing.append (.still same)
  rwa [List.append_nil] at whole

/-- At a tick the session has come to the one before it, and goes on from the one after it. -/
theorem at_tick {before after : Session} (passing : Passing options s (beats ++ .ticked before after :: more) last) :
    Passing options s beats before ∧ Proper options before ∧
      (∃ around, after = (before.elapse around options.tickPeriod).state) ∧ Passing options after more last := by
  induction beats generalizing s with
  | nil =>
    cases passing with
    | ticked same proper around rest => exact ⟨.still same, proper, ⟨around, rfl⟩, rest⟩
  | cons beat others ih =>
    cases passing with
    | ticked same proper around rest =>
      obtain ⟨first, others⟩ := ih rest
      exact ⟨.ticked same proper around first, others⟩
    | pressed same rest =>
      obtain ⟨first, others⟩ := ih rest
      exact ⟨.pressed same first, others⟩

/-- What holds in between and is kept by so many ticks holds after them. -/
theorem counted {motive : Nat → Session → Prop} {all n : Nat} (passing : Passing options s beats last)
    (unpressed : ∀ beat ∈ beats, beat.isTick = true) (begun : motive n s) (count : n + beats.length = all)
    (between : ∀ {n s t}, Undisturbed s t → motive n s → motive n t)
    (tick : ∀ {n s}, n < all → ∀ around, motive n s → motive (n + 1) (s.elapse around options.tickPeriod).state) :
    motive all last := by
  induction passing generalizing n with
  | still same =>
    obtain rfl : n = all := count
    exact between same begun
  | ticked same proper around rest ih =>
    rw [List.length_cons] at count
    have unpressed := (List.forall_mem_cons.mp unpressed).2
    exact ih unpressed (tick (by omega) around (between same begun)) (by omega)
  | pressed same rest ih => exact absurd (unpressed _ List.mem_cons_self) Bool.false_ne_true

end Passing

/-- Ticks that are delivered are passed. -/
theorem passing_ticking {earlier : List Moment} {first s : Session} (course : Course first earlier s)
    (begun : Proper first.options first) (around : Surroundings) (count : Nat) {p : Progress} (same : p.session = s) :
    Passing first.options s (s.ticking around first.options.tickPeriod count)
      (p.steps around first.options.tickPeriod count).session := by
  induction count generalizing earlier s p with
  | zero =>
    rw [Progress.steps, same]
    exact .still (.refl s)
  | succ count ih =>
    refine .ticked (.refl s) (course.proper begun) around ?_
    exact ih (course.elapsed around _) (congrArg (fun s => (s.elapse around first.options.tickPeriod).state) same)

theorem passing_commanded {earlier : List Moment} {first s : Session} (course : Course first earlier s)
    (begun : Proper first.options first) (around : Surroundings) (command : Command) :
    Passing first.options s (s.commanded around command) (s.carryOut around command).state := by
  have period := (course.proper begun).period
  cases command with
  | advance d =>
    simp only [commanded, carryOut, deliver, period]
    exact passing_ticking course begun around _ rfl
  | tick count =>
    simp only [commanded, carryOut, deliver, period]
    exact passing_ticking course begun around _ rfl
  | press => exact .pressed (.refl s) (.still (.refl _))
  | draw =>
    simp only [commanded, carryOut, draw]
    split <;> exact .still ⟨rfl, rfl, rfl⟩
  | tasks | services | events | idle | wifi inRange | screen | help topic => exact .still ⟨rfl, rfl, rfl⟩

theorem passing_beaten {earlier : List Moment} {first s : Session} (course : Course first earlier s)
    (begun : Proper first.options first) (around : Surroundings) (line : String) :
    Passing first.options s (s.beaten around line) (s.handle around line).state := by
  simp only [beaten, handle]
  split
  · exact .still (.refl s)
  · cases Command.parse (Text.trim line) with
    | ok command =>
      have passing := passing_commanded (course.wrote .host [Text.trim line]) begun around command
      have written : Undisturbed s (s.write .host [Text.trim line]) := ⟨rfl, rfl, rfl⟩
      exact (passing.from_undisturbed written).to_undisturbed ⟨rfl, rfl, rfl⟩
    | error e => exact .still ⟨rfl, rfl, rfl⟩

/-- The ticks and presses of any lines are passed. -/
theorem passing_beats {earlier : List Moment} {first s : Session} (course : Course first earlier s)
    (begun : Proper first.options first) (inputs : List (Surroundings × String)) :
    Passing first.options s (s.beats inputs) (s.after inputs) := by
  induction inputs generalizing earlier s with
  | nil => exact .still (.refl s)
  | cons input rest ih =>
    obtain ⟨around, line⟩ := input
    rw [beats, after]
    exact (passing_beaten course begun around line).append (ih (course.handled around line))

/-- A tick after which the badge sleeps with a wake timer has asked for some time. -/
theorem Proper.asked {options : Options} {s : Session} (proper : Proper options s) (awake : s.asleep = none)
    {around : Surroundings} {period d : Duration}
    (sleeps : (s.elapse around period).state.asleep = some ⟨some d⟩) : options.power.sleepThreshold < d := by
  simp only [elapse, awake, stayOn, Emulator.takeSleep] at sleeps
  cases asked : (s.badge.tick around.now).state.shared.body.sleep with
  | none =>
    simp only [asked] at sleeps
    contradiction
  | some request =>
    simp only [asked, Option.some.injEq, Sleeping.mk.injEq] at sleeps
    obtain ⟨config, steady⟩ := proper.reached.steady
    have changed : (s.badge.tick around.now).state.shared.body.sleep ≠ s.badge.shared.body.sleep := by
      rw [asked, proper.unasked]
      exact Option.some_ne_none request
    have fits := (SharedState.conducts around.now).sleepFits s.badge.scheduler steady (.inr changed)
    have given := congrArg (fun sleep => sleep.bind (·.duration)) (asked.symm.trans fits.exact)
    have given : some d = _ := sleeps.symm.trans given
    rw [← config]
    exact IdleTime.lt_of_longerThan fits.idle given.symm

section Asleep

variable {options : Options} {fallen s t : Session} {d : Duration} {n : Nat}

/-- A session that has slept through so many ticks since it fell asleep: what is left on the wake timer and these
ticks make up the time asked for. -/
structure Counting (period d : Duration) (fallen : Session) (n : Nat) (s : Session) : Prop where
  left : ∃ left : Duration, s.asleep = some ⟨some left⟩ ∧ left.nanos + n * period.nanos = d.nanos
  boots : s.boots = fallen.boots
  clock : s.clock = .ofNanos (fallen.clock.nanos + n * period.nanos)

/-- A session that has woken with so many ticks after it fell asleep. -/
structure Woken (period : Duration) (fallen : Session) (n : Nat) (s : Session) : Prop where
  awake : s.asleep = none
  boots : s.boots = fallen.boots + 1
  clock : s.clock = .ofNanos (fallen.clock.nanos + n * period.nanos)

theorem counting_begun (period : Duration) (sleeps : fallen.asleep = some ⟨some d⟩) :
    Counting period d fallen 0 fallen := by
  refine ⟨⟨d, sleeps, by simp⟩, rfl, Duration.ext ?_⟩
  have bound := fallen.clock.nanos_le
  rw [Duration.nanos_ofNanos]
  omega

theorem Counting.between {period : Duration} (still : Undisturbed s t) (counting : Counting period d fallen n s) :
    Counting period d fallen n t := by
  obtain ⟨⟨left, asleep, sum⟩, boots, clock⟩ := counting
  exact ⟨⟨left, still.asleep.trans asleep, sum⟩, still.boots.trans boots, still.clock.trans clock⟩

/-- One more tick asleep: the timer runs down by a period, or the badge wakes with its last. -/
theorem Counting.tick {period : Duration} (counting : Counting period d fallen n s) (around : Surroundings) :
    ((n + 1) * period.nanos < d.nanos → Counting period d fallen (n + 1) (s.elapse around period).state) ∧
      (d.nanos ≤ (n + 1) * period.nanos → Woken period fallen (n + 1) (s.elapse around period).state) := by
  obtain ⟨⟨left, asleep, sum⟩, boots, clock⟩ := counting
  have later : (s.elapse around period).state.clock = .ofNanos (fallen.clock.nanos + (n + 1) * period.nanos) := by
    rw [elapse_clock, clock]
    apply Duration.ext
    simp only [Duration.nanos_add, Duration.nanos_ofNanos, Nat.succ_mul]
    omega
  have grown : (n + 1) * period.nanos = n * period.nanos + period.nanos := Nat.succ_mul _ _
  constructor
  · intro more
    have long : ¬ left ≤ period := by
      rw [Duration.le_iff]
      omega
    refine ⟨⟨left - period, ?_, ?_⟩, ?_, later⟩
    · simp only [elapse, asleep, sleepOn, long, ↓reduceIte]
    · rw [Duration.nanos_sub, grown]
      rw [Duration.le_iff] at long
      omega
    · simp only [elapse, asleep, sleepOn, long, ↓reduceIte]
      exact boots
  · intro due
    have last : left ≤ period := by
      rw [Duration.le_iff]
      omega
    refine ⟨?_, ?_, later⟩
    · simp only [elapse, asleep, sleepOn, last, ↓reduceIte, restart]
    · simp only [elapse, asleep, sleepOn, last, ↓reduceIte, restart]
      rw [boots]

/-- Without a wake timer a sleeping badge sleeps on. -/
structure Resting (fallen s : Session) : Prop where
  asleep : s.asleep = some ⟨none⟩
  boots : s.boots = fallen.boots

theorem Resting.between (still : Undisturbed s t) (resting : Resting fallen s) : Resting fallen t :=
  ⟨still.asleep.trans resting.asleep, still.boots.trans resting.boots⟩

theorem Resting.tick (resting : Resting fallen s) (around : Surroundings) (period : Duration) :
    Resting fallen (s.elapse around period).state := by
  constructor
  · simp only [elapse, resting.asleep, sleepOn]
  · simp only [elapse, resting.asleep, sleepOn]
    exact resting.boots

/-- As long as the ticks do not cover the time asked for, the badge sleeps on. -/
theorem Passing.counting {between : List Beat} (passing : Passing options fallen between s)
    (unpressed : ∀ beat ∈ between, beat.isTick = true) (asleep : fallen.asleep = some ⟨some d⟩)
    (few : between.length < periodsIn d options.tickPeriod) :
    Counting options.tickPeriod d fallen between.length s := by
  refine passing.counted unpressed (counting_begun _ asleep) (Nat.zero_add _) (fun still => Counting.between still) ?_
  intro n s less around counting
  exact (counting.tick around).1 ((lt_periodsIn options.tickPeriod_pos).mp (by omega))

theorem Passing.resting {between : List Beat} (passing : Passing options fallen between s)
    (unpressed : ∀ beat ∈ between, beat.isTick = true) (asleep : fallen.asleep = some ⟨none⟩) : Resting fallen s :=
  passing.counted (motive := fun _ => Resting fallen) unpressed ⟨asleep, rfl⟩ (Nat.zero_add _)
    (fun still => Resting.between still) fun _ around resting => resting.tick around _

end Asleep

/-- The wake timer. Take any tick in which the badge falls asleep, and any later tick with no press in between.
Where a time was asked for, the badge sleeps before every tick up to the one that covers it, with the rest of the time
left on the timer, sleeps on with every tick before that one, and wakes with that one: between its falling asleep and
its waking lies the time asked for, and less than a period more. Where none was asked for, it sleeps on. -/
theorem wakes_when_due (options : Options) (transcript : Option Transcript) (around : Surroundings)
    (inputs : List (Surroundings × String)) {earlier between later : List Beat} {awake fallen before after : Session}
    {request : Option Duration}
    (beats : (start options transcript around).state.beats inputs =
      earlier ++ .ticked awake fallen :: (between ++ .ticked before after :: later))
    (falls : awake.asleep = none) (asleep : fallen.asleep = some ⟨request⟩)
    (unpressed : ∀ beat ∈ between, beat.isTick = true) :
    let period := options.tickPeriod
    let ticks := between.length + 1
    before.badge.scheduler.period = period ∧
      (∀ d, request = some d → 0 < periodsIn d period ∧ (ticks ≤ periodsIn d period →
        Counting period d fallen between.length before ∧
          (ticks < periodsIn d period → Counting period d fallen ticks after) ∧
          (ticks = periodsIn d period → Woken period fallen ticks after ∧
            (fallen.clock.nanos + ticks * period.nanos ≤ Duration.maxNanos →
              fallen.clock.nanos + d.nanos ≤ after.clock.nanos ∧
                after.clock.nanos < fallen.clock.nanos + d.nanos + period.nanos)))) ∧
      (request = none → Resting fallen before ∧ Resting fallen after) := by
  intro period ticks
  let first := (start options transcript around).state
  have begun : Proper first.options first := proper_start options transcript around
  have passing : Passing options first (first.beats inputs) (first.after inputs) := passing_beats .begun begun inputs
  rw [beats] at passing
  obtain ⟨-, properly, ⟨falling, rfl⟩, passing⟩ := passing.at_tick
  obtain ⟨slept, proper, ⟨around, rfl⟩, -⟩ := passing.at_tick
  refine ⟨proper.period, ?_, ?_⟩
  · rintro d rfl
    have due {n : Nat} : n < periodsIn d period ↔ n * period.nanos < d.nanos := lt_periodsIn options.tickPeriod_pos
    refine ⟨?_, fun inTime => ?_⟩
    · rw [due, Nat.zero_mul]
      exact Nat.lt_of_le_of_lt (Nat.zero_le _) (properly.asked falls asleep)
    · have counting := slept.counting unpressed asleep inTime
      obtain ⟨sleepsOn, wakes⟩ := counting.tick around
      refine ⟨counting, fun early => sleepsOn (due.mp early), fun last => ?_⟩
      have covered : d.nanos ≤ ticks * period.nanos := Nat.le_of_not_lt fun more => Nat.ne_of_lt (due.mpr more) last
      have woken := wakes covered
      have short : between.length * period.nanos < d.nanos := due.mp inTime
      have grown : ticks * period.nanos = between.length * period.nanos + period.nanos := Nat.succ_mul _ _
      refine ⟨woken, fun unsaturated => ?_⟩
      rw [woken.clock, Duration.nanos_ofNanos, Nat.min_eq_left unsaturated]
      omega
  · rintro rfl
    have resting := slept.resting unpressed asleep
    exact ⟨resting, resting.tick _ _⟩

end Session

/-- No log line is kept, and a badge that boots finds a clock and a counter. -/
def Surroundings.withApps : Surroundings := { nothing with files := AppStore.clockAndCounter.files }

namespace Session

/-- A badge with a counter that runs every two seconds, and falls asleep for that time in its first tick. -/
def dozing : Options :=
  { Options.standard with root := .ofText ".", period := .ofMillis 600, power := ⟨.ofMillis 15, .ofMillis 100⟩ }

/-- A session with that badge. -/
def dozer : Session := (start dozing none .withApps).state

/-- The ticks of that session. -/
def dozerBeats : List Beat := dozer.beats (typed ["tick 2", "screen", "advance 1000", "wifi off", "tick"])

/-- The sleep before and after a tick, and the time after it. -/
def sleepsIn : Beat → Option (Option Sleeping × Option Sleeping × Duration)
  | .ticked before after => some (before.asleep, after.asleep, after.clock)
  | .pressed .. => none

theorem ticked_of_sleepsIn {beat : Beat} {asleep still : Option Sleeping} {clock : Duration}
    (seen : sleepsIn beat = some (asleep, still, clock)) :
    ∃ before after, beat = .ticked before after ∧ before.asleep = asleep ∧ after.asleep = still ∧
      after.clock = clock := by
  cases beat with
  | ticked before after =>
    simp only [sleepsIn, Option.some.injEq, Prod.mk.injEq] at seen
    exact ⟨before, after, rfl, seen⟩
  | pressed before after => contradiction

/-- Two seconds are covered by four periods of 600 milliseconds, here in three commands. -/
theorem wakes_when_due_dozer :
    ∃ awake fallen before after between,
      dozerBeats = [] ++ .ticked awake fallen :: (between ++ .ticked before after :: []) ∧
        (awake.asleep = none ∧ fallen.asleep = some ⟨some (.ofMillis 2000)⟩ ∧ between.length = 3 ∧
          ∀ beat ∈ between, beat.isTick = true) ∧
        Woken dozing.tickPeriod fallen 4 after ∧ fallen.clock.nanos + 2000000000 ≤ after.clock.nanos ∧
          after.clock.nanos < fallen.clock.nanos + 2600000000 := by
  let left (millis : Nat) : Option Sleeping := some ⟨some (.ofMillis millis)⟩
  have seen : dozerBeats.map sleepsIn =
      [some (none, left 2000, .ofMillis 600), some (left 2000, left 1400, .ofMillis 1200),
        some (left 1400, left 800, .ofMillis 1800), some (left 800, left 200, .ofMillis 2400),
        some (left 200, none, .ofMillis 3000)] := by decide +kernel
  have due : periodsIn (.ofMillis 2000) dozing.tickPeriod = 4 := by decide +kernel
  have period : dozing.tickPeriod = .ofMillis 600 := by decide +kernel
  obtain ⟨b₀, l₀, split, first, seen⟩ := List.map_eq_cons_iff.mp seen
  obtain ⟨b₁, l₁, rfl, second, seen⟩ := List.map_eq_cons_iff.mp seen
  obtain ⟨b₂, l₂, rfl, third, seen⟩ := List.map_eq_cons_iff.mp seen
  obtain ⟨b₃, l₃, rfl, fourth, seen⟩ := List.map_eq_cons_iff.mp seen
  obtain ⟨b₄, l₄, rfl, fifth, seen⟩ := List.map_eq_cons_iff.mp seen
  obtain rfl := List.map_eq_nil_iff.mp seen
  obtain ⟨awake, fallen, rfl, falls, asleep, clock⟩ := ticked_of_sleepsIn first
  obtain ⟨s₁, t₁, rfl, -⟩ := ticked_of_sleepsIn second
  obtain ⟨s₂, t₂, rfl, -⟩ := ticked_of_sleepsIn third
  obtain ⟨s₃, t₃, rfl, -⟩ := ticked_of_sleepsIn fourth
  obtain ⟨before, after, rfl, -⟩ := ticked_of_sleepsIn fifth
  let between : List Beat := [.ticked s₁ t₁, .ticked s₂ t₂, .ticked s₃ t₃]
  have split : dozerBeats = [] ++ .ticked awake fallen :: (between ++ .ticked before after :: []) := split
  have ticks : ∀ beat ∈ between, beat.isTick = true := by simp [between, Beat.isTick]
  obtain ⟨-, timed, -⟩ := wakes_when_due dozing none _ _ split falls asleep ticks
  obtain ⟨-, timed⟩ := timed (.ofMillis 2000) rfl
  rw [due] at timed
  obtain ⟨-, -, wakes⟩ := timed (Nat.le_refl 4)
  obtain ⟨woken, inTime⟩ := wakes rfl
  have unsaturated : (Duration.ofMillis 600).nanos + 4 * (Duration.ofMillis 600).nanos ≤ Duration.maxNanos := by decide
  rw [period, clock] at inTime
  refine ⟨awake, fallen, before, after, between, split, ⟨falls, asleep, rfl, ticks⟩, woken, ?_⟩
  rw [clock]
  exact inTime unsaturated

end Session
end Console
end ConferenceBadge
