import ConferenceBadge.Console.Session
import ConferenceBadge.Proofs.Badge.Patience

/-!
The course of a session: the states that a session can come to, step by step, and the moments of its
badges, one boot after the other. Every line from the console is a course of such steps (`Course.handled`),
so what each step keeps holds after any lines (`Course.after`).
-/
namespace ConferenceBadge.Console

/-- No files, and no log line is kept. -/
def Surroundings.nothing : Surroundings := ⟨0, ⟨.emptyFolder, []⟩, none⟩

/-- Lines that are typed while nothing happens around the session. -/
def typed (lines : List String) : List (Surroundings × String) := lines.map (.nothing, ·)

namespace Session

/-- The sessions that a first one can come to, with the moments of their badges on the way. -/
inductive Course (first : Session) : List Moment → Session → Prop
  | begun : Course first [] first
  | noted {moments : List Moment} {s : Session} (earlier : Course first moments s) (clock : Duration)
      (transcript : Option Transcript) : Course first moments { s with clock, transcript }
  | restarted {moments : List Moment} {s : Session} (earlier : Course first moments s) {asleep : Sleeping}
      (sleeping : s.asleep = some asleep) (around : Surroundings) :
      Course first (moments ++ [.booted]) (s.restart around).state
  | dozed {moments : List Moment} {s : Session} (earlier : Course first moments s) {asleep : Sleeping}
      (sleeping : s.asleep = some asleep) (left : Option Duration) :
      Course first moments { s with asleep := some ⟨left⟩ }
  | stayed {moments : List Moment} {s : Session} (earlier : Course first moments s) (awake : s.asleep = none)
      (around : Surroundings) : Course first (moments ++ s.badge.moments around.now) (s.stayOn around).state
  | pressed {moments : List Moment} {s : Session} (earlier : Course first moments s) (awake : s.asleep = none) :
      Course first (moments ++ [.pressed]) { s with badge := s.badge.press.state }
  | tuned {moments : List Moment} {s : Session} (earlier : Course first moments s) (inRange : Bool) :
      Course first moments { s with badge := s.badge.setInRange inRange }
  | drawn {moments : List Moment} {s : Session} (earlier : Course first moments s) (awake : s.asleep = none)
      (now : Int) : Course first moments { s with badge := (s.badge.drawHome now).state }

/-- The moments of one period: a tick while awake, and a boot where the badge wakes. -/
def elapsed (s : Session) (around : Surroundings) (period : Duration) : List Moment :=
  match s.asleep with
  | none => s.badge.moments around.now
  | some _ => if (s.elapse around period).state.boots = s.boots then [] else [.booted]

/-- The moments of so many periods, one after the other. -/
def delivered (around : Surroundings) (period : Duration) : Nat → Session → List Moment
  | 0, _ => []
  | n + 1, s => s.elapsed around period ++ delivered around period n (s.elapse around period).state

/-- The moments of a command. -/
def carriedOut (s : Session) (around : Surroundings) : Command → List Moment
  | .advance d => s.delivered around s.badge.scheduler.period (ticksFor d s.badge.scheduler.period)
  | .tick count => s.delivered around s.badge.scheduler.period count
  | .press => if s.isAsleep then [.booted] else [.pressed]
  | .tasks | .services | .events | .idle | .wifi _ | .draw | .screen | .help _ => []

def handled (s : Session) (around : Surroundings) (line : String) : List Moment :=
  let line := Text.trim line
  if line = "" then []
  else
    match Command.parse line with
    | .ok command => (s.write .host [line]).carriedOut around command
    | .error _ => []

/-- The session after some lines, each with what the session finds around it then. -/
def after : Session → List (Surroundings × String) → Session
  | s, [] => s
  | s, (around, line) :: rest => (s.handle around line).state.after rest

def moments : Session → List (Surroundings × String) → List Moment
  | _, [] => []
  | s, (around, line) :: rest => s.handled around line ++ (s.handle around line).state.moments rest

theorem stayOn_frame (s : Session) (around : Surroundings) :
    (s.stayOn around).state.badge = (s.badge.tick around.now).state.takeSleep.state ∧
      (s.stayOn around).state.options = s.options ∧ (s.stayOn around).state.apps = s.apps ∧
      (s.stayOn around).state.boots = s.boots := by
  simp only [stayOn]
  split <;> exact ⟨rfl, rfl, rfl, rfl⟩

namespace Course

variable {earlier : List Moment} {first s : Session}

/-- A session goes by its options, and knows the apps that it found when it began. -/
theorem kept (course : Course first earlier s) : s.options = first.options ∧ s.apps = first.apps := by
  induction course with
  | begun => exact ⟨rfl, rfl⟩
  | @stayed moments s earlier awake around ih =>
    obtain ⟨-, options, apps, -⟩ := stayOn_frame s around
    exact ⟨options.trans ih.1, apps.trans ih.2⟩
  | noted earlier clock transcript ih => exact ih
  | restarted earlier sleeping around ih => exact ih
  | dozed earlier sleeping left ih => exact ih
  | pressed earlier awake ih => exact ih
  | tuned earlier inRange ih => exact ih
  | drawn earlier awake now ih => exact ih

theorem reached (course : Course first earlier s) (booted : Emulator.Reached first.options.power first.badge) :
    Emulator.Reached first.options.power s.badge := by
  induction course with
  | begun => exact booted
  | noted earlier clock transcript ih => exact ih
  | @restarted moments s earlier asleep sleeping around ih =>
    rw [← earlier.kept.1]
    exact .booted (s.store around) around.now s.badge.radio.afterSleep s.options.period
  | dozed earlier sleeping left ih => exact ih
  | @stayed moments s earlier awake around ih =>
    rw [(stayOn_frame s around).1]
    exact (ih.ticked around.now).slept
  | pressed earlier awake ih => exact ih.pressed
  | tuned earlier inRange ih => exact ih.tuned _
  | drawn earlier awake now ih => exact ih.drawn now

theorem wrote (course : Course first earlier s) (speaker : Speaker) (texts : List String) :
    Course first earlier (s.write speaker texts) := course.noted s.clock _

theorem elapsed (course : Course first earlier s) (around : Surroundings) (period : Duration) :
    Course first (earlier ++ s.elapsed around period) (s.elapse around period).state := by
  have on := course.noted (s.clock + period) s.transcript
  obtain ⟨options, apps, badge, asleep, boots, clock, transcript⟩ := s
  cases asleep with
  | none => exact on.stayed rfl around
  | some asleep =>
    obtain ⟨left⟩ := asleep
    simp only [Session.elapsed, elapse, sleepOn]
    cases left with
    | none =>
      simp only [↓reduceIte, List.append_nil]
      exact on
    | some left =>
      by_cases last : left ≤ period
      · have again : boots + 1 ≠ boots := Nat.succ_ne_self _
        simp only [last, ↓reduceIte, restart, again]
        exact on.restarted rfl around
      · simp only [last, ↓reduceIte, List.append_nil]
        exact on.dozed rfl _

theorem delivered (course : Course first earlier s) (around : Surroundings) (period : Duration) (count : Nat)
    {p : Progress} (same : p.session = s) :
    Course first (earlier ++ Session.delivered around period count s) (p.steps around period count).session := by
  induction count generalizing earlier s p with
  | zero =>
    rw [Session.delivered, List.append_nil, Progress.steps, same]
    exact course
  | succ count ih =>
    rw [Session.delivered, ← List.append_assoc]
    exact ih (course.elapsed around period) (congrArg (fun s => (s.elapse around period).state) same)

theorem carriedOut (course : Course first earlier s) (around : Surroundings) (command : Command) :
    Course first (earlier ++ s.carriedOut around command) (s.carryOut around command).state := by
  have quiet : Course first (earlier ++ []) s := by rwa [List.append_nil]
  cases command with
  | advance d => exact course.delivered around _ _ rfl
  | tick count => exact course.delivered around _ _ rfl
  | press =>
    obtain ⟨options, apps, badge, asleep, boots, clock, transcript⟩ := s
    cases asleep with
    | none => exact course.pressed rfl
    | some asleep => exact course.restarted rfl around
  | wifi inRange => exact quiet.tuned inRange
  | draw =>
    obtain ⟨options, apps, badge, asleep, boots, clock, transcript⟩ := s
    cases asleep with
    | none => exact quiet.drawn rfl around.now
    | some asleep => exact quiet
  | tasks | services | events | idle | screen | help topic => exact quiet

/-- A line from the console is a course of steps. -/
theorem handled (course : Course first earlier s) (around : Surroundings) (line : String) :
    Course first (earlier ++ s.handled around line) (s.handle around line).state := by
  have quiet : Course first (earlier ++ []) s := by rwa [List.append_nil]
  simp only [Session.handled, handle]
  split
  · exact quiet
  · refine Course.wrote (Course.wrote ?_ .log _) .emulator _
    cases Command.parse (Text.trim line) with
    | ok command => exact (course.wrote .host [Text.trim line]).carriedOut around command
    | error e => exact quiet.wrote .host [Text.trim line]

theorem after (course : Course first earlier s) (inputs : List (Surroundings × String)) :
    Course first (earlier ++ s.moments inputs) (s.after inputs) := by
  induction inputs generalizing earlier s with
  | nil =>
    rw [Session.moments, List.append_nil]
    exact course
  | cons input rest ih =>
    rw [Session.moments, ← List.append_assoc]
    exact ih (course.handled input.1 input.2)

end Course
end Session
end ConferenceBadge.Console
