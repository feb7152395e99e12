import ConferenceBadge.Console.Command
import ConferenceBadge.Console.Help
import ConferenceBadge.Console.Transcript
import ConferenceBadge.Emulator

/-!
A console session with the emulated badge. The session delivers the ticks and keeps the simulated
time. When the badge asks for deep sleep, the session counts down its wake timer, and waking is a new
boot: everything but the radio's settings and the clock starts over.
-/
namespace ConferenceBadge.Console

/-- What a session is started with. -/
structure Options where
  /-- the path below which apps are found -/
  root : Path
  period : Duration
  power : Power.Config
  /-- an access point is in range -/
  wifi : Bool
  /-- the file for a transcript -/
  transcript : Option Path

/-- Apps from `demos`, ticks every ten milliseconds and an access point in range. -/
def Options.standard : Options where
  root := .ofText "demos"
  period := Emulator.defaultPeriod
  power := .standard
  wifi := true
  transcript := none

/-- Opens the transcript, if there is to be one, before anything else happens. -/
def Options.openTranscript (o : Options) : Files (Option Transcript) :=
  match o.transcript with
  | none => return none
  | some path => do
    let place ← FileSystem.makeFileAndFolders path
    return some (.start place o.root)

/-- What a session finds around it at any time: the time on the host, the files, and which log lines
are kept. -/
structure Surroundings where
  now : Int
  files : FileSystem
  filter : Log.Filter

/-- The files with what a transcript holds so far in its file. -/
def Surroundings.filesWith (around : Surroundings) (transcript : Option Transcript) : FileSystem :=
  transcript.elim around.files (·.save around.files)

/-- Deep sleep, with what is left on the wake timer; without one a button has to be pressed. -/
structure Sleeping where
  left : Option Duration
deriving DecidableEq

/-- A session. -/
structure Session where
  options : Options
  /-- the apps that were found when the session began -/
  apps : Option (List String)
  badge : Emulator
  asleep : Option Sleeping
  /-- how many times the badge has booted: an idealised count, which has no width -/
  boots : Nat
  /-- the simulated time since the session began -/
  clock : Duration
  transcript : Option Transcript

namespace Session

/-- The files as the session leaves them. -/
def files (s : Session) (around : Surroundings) : FileSystem := around.filesWith s.transcript

/-- The store of apps as it is now. The transcript may be one of its files. -/
def store (s : Session) (around : Surroundings) : AppStore := ⟨s.apps, s.options.root, s.files around⟩

def isAsleep (s : Session) : Bool := s.asleep.isSome

/-- Writes lines into the transcript, if there is one. -/
def write (s : Session) (speaker : Speaker) (texts : List String) : Session :=
  { s with transcript := s.transcript.map (·.append s.clock speaker texts) }

/-- Writes the log lines that are kept into the transcript. -/
def writeLog (s : Session) (around : Surroundings) (lines : List Log.Line) : Session :=
  s.write .log (around.filter.render lines)

/-- Begins a session, whose transcript is open: the badge boots for the first time. -/
def start (options : Options) (transcript : Option Transcript) (around : Surroundings) :
    Reply Session Unit :=
  let store := AppStore.ofRoot options.root (around.filesWith transcript)
  let booted := Emulator.boot store around.now (.off options.wifi) options.power options.period
  let session : Session :=
    { options, apps := store.names, badge := booted.state, asleep := none, boots := 1, clock := .zero
      transcript }
  ⟨(), session.writeLog around booted.log, booted.log⟩

def restart (s : Session) (around : Surroundings) : Reply Session (List String) :=
  let booted :=
    Emulator.boot (s.store around) around.now s.badge.radio.afterSleep s.options.power s.options.period
  let boots := s.boots + 1
  ⟨[s!"boot #{boots} with {booted.state.roster.slots.length} services"],
    { s with badge := booted.state, asleep := none, boots }, booted.log⟩

/-- What happened in one tick: the tally, and a line for falling asleep or waking. -/
structure Elapsed where
  tally : TickTally
  lines : List String

/-- A line with the time at which something happened. -/
def timed (time : Duration) (text : String) : String := "+" ++ time.text ++ " " ++ text

/-- One period asleep: the wake timer runs down by a period, and the badge wakes with its last. -/
def sleepOn (s : Session) (around : Surroundings) (asleep : Sleeping) (period : Duration) :
    Reply Session Elapsed :=
  match asleep.left with
  | none => ⟨⟨.none, []⟩, s, []⟩
  | some left =>
    if left ≤ period then
      let woken := s.restart around
      ⟨⟨.none, timed s.clock "wake timer fired" :: woken.answer⟩, woken.state, woken.log⟩
    else ⟨⟨.none, []⟩, { s with asleep := some ⟨some (left - period)⟩ }, []⟩

/-- What ends the sleep asked for. -/
def wakeText (request : Power.SleepRequest) : String :=
  match request.duration with
  | some d => d.text
  | none => "a button press"

/-- One period awake: a tick, after which the badge may fall asleep. -/
def stayOn (s : Session) (around : Surroundings) : Reply Session Elapsed :=
  let ticked := s.badge.tick around.now
  let taken := ticked.state.takeSleep
  let s := { s with badge := taken.state }
  match taken.answer with
  | none => ⟨⟨ticked.answer, []⟩, s, ticked.log ++ taken.log⟩
  | some request =>
    ⟨⟨ticked.answer, [timed s.clock ("entering deep sleep until " ++ wakeText request)]⟩,
      { s with asleep := some ⟨request.duration⟩ }, ticked.log ++ taken.log⟩

def elapse (s : Session) (around : Surroundings) (period : Duration) : Reply Session Elapsed :=
  let s := { s with clock := s.clock + period }
  match s.asleep with
  | some asleep => s.sleepOn around asleep period
  | none => s.stayOn around

/-- Ticks delivered so far: the session after them, and what happened in all of them. -/
structure Progress where
  session : Session
  totals : TickTally
  lines : Array String
  log : Array Log.Line

def Progress.step (around : Surroundings) (period : Duration) (p : Progress) : Progress :=
  let e := p.session.elapse around period
  { session := e.state, totals := p.totals.add e.answer.tally, lines := p.lines ++ e.answer.lines
    log := p.log ++ e.log }

def Progress.steps (around : Surroundings) (period : Duration) : Nat → Progress → Progress
  | 0, p => p
  | n + 1, p => steps around period n (p.step around period)

def summary (count : Nat) (time : Duration) (totals : TickTally) : String :=
  s!"{count} ticks, now +{time.text}: fired {totals.fired} rescheduled {totals.rescheduled} removed {totals.removed} faulted {totals.faulted}"

/-- Delivers ticks at the scheduler's period. -/
def deliver (s : Session) (around : Surroundings) (count : Nat) : Reply Session (List String) :=
  let start : Progress := { session := s, totals := .none, lines := #[], log := #[] }
  let p := start.steps around s.badge.scheduler.period count
  ⟨summary count p.session.clock p.totals :: p.lines.toList, p.session, p.log.toList⟩

/-- How many ticks cover a time: as few as reach it, and never more than can be asked for. -/
def ticksFor (d period : Duration) : Nat :=
  let period := max period.nanos 1
  min ((d.nanos + (period - 1)) / period) Command.mostTicks

/-- Presses a button, which wakes a sleeping badge. -/
def press (s : Session) (around : Surroundings) : Reply Session (List String) :=
  if s.isAsleep then
    let woken := s.restart around
    { woken with answer := "button woke the badge" :: woken.answer }
  else
    let pressed := s.badge.press
    let line :=
      match pressed.answer with
      | .ok handle => s!"idle detection re-armed as {handle}"
      | .error e => "ERR " ++ e.message
    ⟨[line], { s with badge := pressed.state }, pressed.log⟩

def taskLine (t : Task Key) : String :=
  let visibility :=
    match t.visibility with
    | .visible => "visible"
    | .hidden => "hidden"
  s!"{t.handle} {t.key} {visibility} {t.position.millis}/{t.target.text}"

/-- The registered tasks, below what the timer does. -/
def taskLines (s : Session) : List String :=
  let scheduler := s.badge.scheduler
  if scheduler.tasks.isEmpty then ["no tasks registered"]
  else
    let ticking :=
      match scheduler.timer.running with
      | some period => s!"ticking every {period.text}"
      | none => "ticks stopped"
    ticking :: scheduler.tasks.map taskLine

def serviceLine (number : Nat) (slot : Service.Slot DemoService) : String :=
  let looping :=
    match slot.loopTask with
    | some handle => toString handle
    | none => "-"
  let draws := if slot.draws then "yes" else "no"
  s!"{number}: {slot.name.text} loop {looping} draws {draws}"

def serviceLines (s : Session) : List String :=
  let slots := s.badge.roster.slots
  if slots.isEmpty then ["no services running"] else slots.mapIdx serviceLine

def eventLine (r : LoggedEvent Key) : String :=
  "[" ++ Text.atRight 3 (toString r.seq) ' ' ++ "] " ++ timed r.uptime (toString r.event)

def eventLines (s : Session) : List String :=
  let events := s.badge.scheduler.events
  if events.isEmpty then ["no events recorded"] else events.kept.map eventLine

def screenLines (s : Session) : List String :=
  s.badge.panel.front.rows.map fun row => Text.atRight 3 (toString row.1) ' ' ++ " | " ++ row.2

/-- How long the badge stays idle, and the task that detects it. -/
def idleLines (s : Session) : List String :=
  let armed :=
    match s.badge.manager.handle with
    | some handle => s!"idle detection armed as {handle}"
    | none => "idle detection off"
  [s!"idle time {s.badge.scheduler.idleTime}", armed]

/-- The answer of a badge that cannot be asked. -/
def asleepAnswer : List String := ["badge is asleep"]

/-- Puts an access point in or out of range. -/
def setInRange (s : Session) (inRange : Bool) : Reply Session (List String) :=
  let range := if inRange then "in range" else "out of range"
  ⟨["access point " ++ range], { s with badge := s.badge.setInRange inRange }, []⟩

def draw (s : Session) (around : Surroundings) : Reply Session (List String) :=
  if s.isAsleep then ⟨asleepAnswer, s, []⟩
  else
    let drawn := s.badge.drawHome around.now
    let s := { s with badge := drawn.state }
    ⟨s.screenLines, s, drawn.log⟩

def carryOut (s : Session) (around : Surroundings) : Command → Reply Session (List String)
  | .advance d => s.deliver around (ticksFor d s.badge.scheduler.period)
  | .tick count => s.deliver around count
  | .press => s.press around
  | .tasks => ⟨s.taskLines, s, []⟩
  | .services => ⟨s.serviceLines, s, []⟩
  | .events => ⟨s.eventLines, s, []⟩
  | .idle => ⟨if s.isAsleep then asleepAnswer else s.idleLines, s, []⟩
  | .wifi inRange => s.setInRange inRange
  | .draw => s.draw around
  | .screen => ⟨s.screenLines, s, []⟩
  | .help topic => ⟨Help.answer topic, s, []⟩

def refuse (s : Session) (e : ParseError) : Reply Session (List String) :=
  ⟨["ERR " ++ e.message, "Type `help` for the list of commands."], s, []⟩

/-- Answers a line from the console; a blank line is passed over. -/
def handle (s : Session) (around : Surroundings) (line : String) : Reply Session (List String) :=
  let line := Text.trim line
  if line = "" then ⟨[], s, []⟩
  else
    let asked := s.write .host [line]
    let done :=
      match Command.parse line with
      | .ok command => asked.carryOut around command
      | .error e => asked.refuse e
    let logged := done.state.writeLog around done.log
    { done with state := logged.write .emulator done.answer }

end Session
end ConferenceBadge.Console
