import ConferenceBadge.Service.Roster

/-!
Running started services: one run of a loop, and drawing. The display's rows are shared out from the
bottom up: each service gets what those before it left.
-/
namespace ConferenceBadge.Service.Roster

variable {κ σ : Type}

/-- The fault that a failing loop reports. -/
def loopFault : Error → Fault
  | .notProvided => ⟨"loop requested but not provided"⟩
  | .failed reason => ⟨reason⟩

/-- Runs the loop of a slot. Where the loop needs wifi and there is none, the run is put off. -/
def loopOnce (r : Roster σ) (number : Nat) : Work κ σ (Except Fault Outcome × Roster σ) := do
  match r.slots[number]? with
  | none => return (.error ⟨"unknown service slot"⟩, r)
  | some slot =>
    let wifi ← if slot.manifest.wifiAtLoop then Work.bringUpWifi else pure true
    if wifi then
      let (result, service) ← Work.on (.loop slot.service)
      match result with
      | .ok outcome =>
        let loopTask := if outcome.delay?.isNone then none else slot.loopTask
        return (.ok outcome, r.modify number fun s => { s with service, loopTask })
      | .error e =>
        Work.log .warn s!"{slot.name.text} loop: {e.message}"
        return (.error (loopFault e), r.modify number fun s => { s with service, loopTask := none })
    else
      Work.log .warn s!"{slot.name.text}: wifi unavailable, retrying later"
      return (.ok (.again r.config.wifiRetryDelay), r)

/-- Drawing as far as it has come: the rows left, the soonest interval asked for and the slots that
keep drawing. -/
structure Drawing (σ : Type) where
  slots : List (Slot σ)
  budget : Nat
  soonest : Option Duration
  kept : List Nat

namespace Drawing

/-- The shorter of an interval and the soonest so far. -/
def sooner (soonest : Option Duration) (interval : Duration) : Option Duration :=
  some (soonest.elim interval (min · interval))

/-- A slot is drawn and keeps drawing or not. -/
def drawn (d : Drawing σ) (number : Nat) (service : σ) (keeps : Bool) : Drawing σ :=
  { d with
    slots := d.slots.modify number fun s => { s with service, draws := keeps }
    kept := if keeps then d.kept ++ [number] else d.kept }

def slot (d : Drawing σ) (number : Nat) : Work κ σ (Drawing σ) := do
  match d.slots[number]? with
  | none => return d
  | some s =>
    let (result, service) ← Work.on (.draw s.service d.budget)
    match result with
    | .ok report =>
      let d := { d with budget := d.budget - report.spaceUsed }
      match report.interval? with
      | some interval =>
        return { d.drawn number service true with soonest := sooner d.soonest interval }
      | none =>
        Work.log .debug s!"{s.name.text} stopped drawing"
        return d.drawn number service false
    | .error e =>
      Work.log .warn s!"{s.name.text} draw: {e.message}"
      return d.drawn number service false

def through : List Nat → Drawing σ → Work κ σ (Drawing σ)
  | [], d => return d
  | number :: rest, d => do through rest (← d.slot number)

end Drawing

/-- Draws every slot on the draw list between `beginDrawing` and `endDrawing`. Slots that fail or ask for no
more leave the list; the task comes back for the soonest of the others, and goes once there is
none. -/
def drawScheduled (r : Roster σ) : Work κ σ (Outcome × Roster σ) := do
  Work.on .beginDrawing
  let budget ← Work.on .height
  let d ← Drawing.through r.drawList { slots := r.slots, budget, soonest := none, kept := [] }
  let r := { r with slots := d.slots, drawList := d.kept }
  match d.soonest with
  | some interval =>
    if interval < r.config.shortestDrawInterval then
      Work.log .debug s!"draw interval {interval.text} raised to the minimum"
    Work.on .endDrawing
    return (.again (max interval r.config.shortestDrawInterval), r)
  | none =>
    Work.log .info "no service draws remain"
    Work.on .endDrawing
    return (.remove, { r with drawingTask := none })

/-- Draws slots one after the other and lets each keep its place; `budget` rows are left. -/
def drawOnce : List Nat → Nat → Roster σ → Work κ σ (Roster σ)
  | [], _, r => return r
  | number :: rest, budget, r => do
    match r.slots[number]? with
    | none => drawOnce rest budget r
    | some s =>
      let (result, service) ← Work.on (.draw s.service budget)
      let r := r.modify number fun s => { s with service }
      match result with
      | .ok report => drawOnce rest (budget - report.spaceUsed) r
      | .error e =>
        Work.log .warn s!"{s.name.text} draw: {e.message}"
        drawOnce rest budget r

/-- Draws every slot on the draw list once, outside the scheduler. What the services ask for is
ignored and failures are only noted. -/
def drawExtra (r : Roster σ) : Work κ σ (Roster σ) := do
  drawOnce r.drawList (← Work.on .height) r

end ConferenceBadge.Service.Roster
