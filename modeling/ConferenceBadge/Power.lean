import ConferenceBadge.Program

/-!
Deep sleep after a while without input. The power manager owns one hidden task, which every input
re-arms. When that task runs, it asks how long the badge stays idle and, beyond a threshold, sends
the badge to sleep for that long.
-/
namespace ConferenceBadge.Power

/-- The times that the power manager goes by. -/
structure Config where
  /-- how long after the last input idle detection runs -/
  responseTime : Duration
  /-- a longer idle time sends the badge to sleep -/
  sleepThreshold : Duration
deriving DecidableEq

/-- Five seconds after the last input, and to sleep for more than thirty seconds. -/
def Config.standard : Config := ⟨.ofMillis 5000, .ofMillis 30000⟩

/-- Where the response time is kept among the persistent settings. -/
def settingsSpace : String := "splash"

/-- The name of the response time among the persistent settings, in milliseconds. -/
def responseTimeKey : String := "urt"

/-- The configuration from persistent settings, looked up by namespace and key. A response time of
zero is ignored. -/
def Config.ofSettings (settings : String → String → Option Nat) : Config × List Log.Line :=
  match settings settingsSpace responseTimeKey with
  | none => (standard, [])
  | some 0 => (standard, [⟨.warn, .power, "ignoring zero user response time setting"⟩])
  | some millis => ({ standard with responseTime := .ofMillis millis }, [])

/-- The two answers to an idle time. -/
inductive Decision where
  | stayAwake | sleep
deriving DecidableEq

/-- A failure of what runs before sleep; the badge sleeps all the same. -/
structure HookError where
  reason : String
deriving DecidableEq

def HookError.message (e : HookError) : String := "sleep hook failed: " ++ e.reason

/-- A request for deep sleep, for a while or, without a duration, until something else wakes the
badge. -/
structure SleepRequest where
  duration : Option Duration
deriving DecidableEq

/-- What the power manager calls on: a hook before sleep, of a kind `η` of hooks, and sleep itself. -/
inductive Call (η : Type) where
  | preSleep (hook : η) (idle : IdleTime)
  | sleep (request : SleepRequest)
deriving DecidableEq

/-- Only a hook can fail. -/
@[reducible] def Call.Answer {η : Type} : Call η → Type
  | preSleep .. => Except HookError Unit
  | sleep _ => Unit

/-- The platform that sends the badge to sleep. -/
abbrev Platform (η : Type) : Interface := ⟨Call η, Call.Answer⟩

def preSleep {κ η : Type} (hook : η) (idle : IdleTime) : Program κ (Platform η) (Except HookError Unit) :=
  Program.call (.preSleep hook idle) .done

def sleep {κ η : Type} (request : SleepRequest) : Program κ (Platform η) Unit :=
  Program.call (.sleep request) .done

/-- Restarts the badge through the shortest sleep. -/
def restart {κ η : Type} : Program κ (Platform η) Unit := sleep ⟨some (.ofMillis 1)⟩

/-- The line that a part of the badge notes where idle detection could not be registered. -/
def notArmed (source : Log.Source) : Except RegistryError Handle → List Log.Line
  | .ok _ => []
  | .error e => [⟨.error, source, s!"idle detection not armed: {e.message}"⟩]

/-- The power manager: the key of its task, the task's handle while it is registered, the hook and
the number of times it has asked for sleep. -/
structure Manager (κ η : Type) where
  key : κ
  config : Config
  handle : Option Handle
  hook : Option η
  requests : UInt32

namespace Manager

variable {κ η : Type} {I : Interface}

/-- A manager whose task is not registered. -/
def idle (key : κ) (config : Config) : Manager κ η :=
  { key, config, handle := none, hook := none, requests := 0 }

def withHook (m : Manager κ η) (hook : Option η) : Manager κ η := { m with hook }

def arm (m : Manager κ η) : Program κ I (Except RegistryError Handle × Manager κ η) := do
  match ← Program.add m.key m.config.responseTime .hidden with
  | .error e => return (.error e, m)
  | .ok handle =>
    Program.log .debug .power s!"idle detection armed as {handle}"
    return (.ok handle, { m with handle := some handle })

/-- Lets idle detection run one response time from now. A live task that could not be re-armed is
left alone rather than registered a second time. -/
def postpone (m : Manager κ η) : Program κ I (Except RegistryError Handle × Manager κ η) := do
  match m.handle with
  | none => m.arm
  | some handle =>
    if ← Program.update handle m.config.responseTime then return (.ok handle, m)
    if ← Program.contains handle then return (.error .changesetFull, m)
    m.arm

/-- Removes the task. The handle stays as long as the task is still live. -/
def disarm (m : Manager κ η) : Program κ I (Bool × Manager κ η) := do
  match m.handle with
  | none => return (false, m)
  | some handle =>
    if ← Program.delete handle then return (true, { m with handle := none })
    if ← Program.contains handle then return (false, m)
    return (false, { m with handle := none })

/-- What the threshold says about an idle time. -/
def decision (m : Manager κ η) (idle : IdleTime) : Decision :=
  if idle.longerThan m.config.sleepThreshold then .sleep else .stayAwake

/-- Runs the hook, whose failure is only noted, and asks for sleep. -/
def goToSleep (m : Manager κ η) (idle : IdleTime) : Program κ (Platform η) (Manager κ η) := do
  match m.hook with
  | none => pure ()
  | some hook =>
    match ← preSleep hook idle with
    | .ok () => pure ()
    | .error e => Program.log .error .power e.message
  Program.log .info .power s!"sleeping for {idle}"
  sleep ⟨idle.duration?⟩
  return { m with requests := m.requests + 1 }

/-- What the manager's task does. It always asks to run again, which matters where sleep returns. -/
def run (m : Manager κ η) : Program κ (Platform η) (Outcome × Manager κ η) := do
  let idle ← Program.idleTime
  Program.log .debug .power s!"idle time {idle}"
  let m ← match m.decision idle with
    | .sleep => m.goToSleep idle
    | .stayAwake => pure m
  return (.again m.config.responseTime, m)

end Manager
end ConferenceBadge.Power
