import ConferenceBadge.Service.Roster

/-!
Starting services at boot: every installed app is looked at once, in order. An app whose manifest,
service or requirements fail is skipped and leaves no trace in the roster; the others get a slot, a
visible task for their loop and a share in one hidden drawing task.
-/
namespace ConferenceBadge.Service.Roster

variable {κ σ : Type}

/-- Sees to it that wifi is there, if the manifest needs it at any time. -/
def requireWifi (manifest : Manifest) (wifiFailed : Bool) : Work κ σ (Except StartError Unit) := do
  if manifest.needsWifi then
    if wifiFailed then return .error .wifiFailedEarlier
    if ← Work.bringUpWifi then return .ok ()
    return .error .wifiUnavailable
  return .ok ()

/-- Tries to set a clock that is not set, if the manifest needs one. A clock that cannot be set is
only noted. -/
def requireClock (r : Roster σ) (name : AppName) (manifest : Manifest) (wifiFailed : Bool) :
    Work κ σ (Except StartError Unit) := do
  if manifest.needsClock then
    if (← Work.on .time) < r.config.clockValidFrom then
      if wifiFailed then return .error .clockUnavailable
      Work.log .info s!"{name.text} requires the clock, configuring"
      if !(← Work.on .setClock) then
        Work.log .warn s!"clock sync failed for {name.text}"
  return .ok ()

def manifestOf (r : Roster σ) (name : AppName) : Work κ σ (Except StartError Manifest) := do
  match ← Work.on (.manifest name longestManifest) with
  | .error e => return .error (.noManifest e)
  | .ok text =>
    match Manifest.parse text with
    | .error e => Program.noting e.lines (return .error (.manifest e))
    | .ok manifest =>
      match manifest.checkVersion r.config.apiVersion with
      | .error e => return .error (.manifest e)
      | .ok () => return .ok manifest

/-- Makes an app's service ready: its manifest, the service itself, wifi, the clock and its own
setup, in this order. The first that fails is the reason to skip the app. -/
def ready (r : Roster σ) (name : AppName) (hostDraws wifiFailed : Bool) :
    Work κ σ (Except StartError (Slot σ)) := do
  match ← r.manifestOf name with
  | .error e => return .error e
  | .ok manifest =>
    match ← Work.on (.service name) with
    | .error e => return .error (.noService e)
    | .ok service =>
      match ← requireWifi manifest wifiFailed with
      | .error e => return .error e
      | .ok () =>
        match ← r.requireClock name manifest wifiFailed with
        | .error e => return .error e
        | .ok () =>
          match ← Work.on (.setUp service) with
          | (.error e, _) => return .error (.setupFailed e)
          | (.ok (), service) =>
            let draws := manifest.wantsDraw && hostDraws
            return .ok { name, manifest, service, loopTask := none, draws }

/-- Registers the loop of a slot, if it wants one. -/
def registerLoop (key : TaskKey → κ) (number : Nat) (slot : Slot σ) : Work κ σ (Option Handle) := do
  if slot.manifest.wantsLoop then
    match ← Program.add (key (.loop number)) startDelay .visible with
    | .ok handle => return some handle
    | .error e =>
      Work.log .warn s!"loop of {slot.name.text} not registered: {e.message}"
      return none
  return none

/-- Gives a service that is ready the next slot, its loop task and its place among those that
draw. -/
def enlist (r : Roster σ) (key : TaskKey → κ) (slot : Slot σ) : Work κ σ (Roster σ) := do
  let number := r.slots.length
  let loopTask ← registerLoop key number slot
  let r := { r with slots := r.slots ++ [{ slot with loopTask }] }
  if slot.draws then
    if r.drawList.length < r.capacity then
      return { r with drawList := r.drawList ++ [number] }
    Work.log .warn s!"draw list full, {slot.name.text} will not draw"
  return r

def start (r : Roster σ) (key : TaskKey → κ) (name : AppName) (hostDraws wifiFailed : Bool) :
    Work κ σ (Except StartError (Roster σ)) := do
  match ← r.ready name hostDraws wifiFailed with
  | .error e => return .error e
  | .ok slot => if r.hasRoom then return .ok (← r.enlist key slot) else return .error .noSlot

/-- Starts the services of the apps with these numbers. Once wifi has failed for one of them it is
not tried again. -/
def startAll (key : TaskKey → κ) (hostDraws : Bool) : List Nat → Bool → Roster σ → Work κ σ (Roster σ)
  | [], _, r => return r
  | index :: rest, wifiFailed, r => do
    match ← Work.on (.name index) with
    | none =>
      Work.log .info s!"app #{index} skipped: {StartError.nameUnreadable.message}"
      startAll key hostDraws rest wifiFailed r
    | some name =>
      match ← r.start key name hostDraws wifiFailed with
      | .ok started =>
        Work.log .info s!"service for {name.text} started in slot {r.slots.length}"
        startAll key hostDraws rest wifiFailed started
      | .error reason =>
        Work.log .info s!"service for {name.text} skipped: {reason.message}"
        startAll key hostDraws rest (wifiFailed || reason = .wifiUnavailable) r

/-- Registers the drawing task, if there is a display and something to draw; whether it is
registered tells whether services see to redraws from now on. -/
def registerDraw (r : Roster σ) (key : TaskKey → κ) (hostDraws : Bool) : Work κ σ (Bool × Roster σ) := do
  if r.drawList.isEmpty || !hostDraws then return (false, r)
  match ← Program.add (key .draw) startDelay .hidden with
  | .ok handle =>
    Work.log .info "services now handle screen redraws"
    return (true, { r with drawingTask := some handle })
  | .error e =>
    Work.log .warn s!"service draw task not registered: {e.message}"
    return (false, r)

/-- Starts the services of all installed apps. -/
def startInstalled (r : Roster σ) (key : TaskKey → κ) (hostDraws : Bool) : Work κ σ (Bool × Roster σ) := do
  match ← Work.on .count with
  | .error e =>
    Work.log .warn s!"services disabled: {e.message}"
    return (false, r)
  | .ok count =>
    let r ← startAll key hostDraws (List.range count) false r
    r.registerDraw key hostDraws

end ConferenceBadge.Service.Roster
