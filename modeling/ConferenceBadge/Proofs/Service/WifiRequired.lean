import ConferenceBadge.Proofs.Service.Attempts
import ConferenceBadge.Service.Running

/-!
Wifi where it is required. A service that needs wifi at any time is set up only while wifi is there, and a loop that
needs it runs only then (`Roster.LoopsWithin`): the check comes directly before. This holds in every state that
ticks, other tasks and changes of the network can lead to (`Roster.Course`), and the manifests in the slots stay
those that the store had for their apps.
-/
namespace ConferenceBadge.Service

variable {κ σ τ ω ψ : Type} {handler : Handler (World σ) ω}

/-- Wifi is there: whoever asks now is told so. -/
def Up (handler : Handler (World σ) ω) (w : ω) : Prop := (handler .connected w).answer = true

/-- Wifi is there after an attempt to connect that succeeds, and neither asking about it, nor the clock, ends it. -/
structure KeepsWifi (handler : Handler (World σ) ω) : Prop where
  connect : ∀ w, (handler .connect w).answer = true → Up handler (handler .connect w).state
  asked : ∀ w, Up handler w → Up handler (handler .connected w).state
  time : ∀ w, Up handler w → Up handler (handler .time w).state
  setClock : ∀ w, Up handler w → Up handler (handler .setClock w).state

/-- Wifi is there if the manifest needs it at any time. -/
def WifiMet (handler : Handler (World σ) ω) (manifest : Manifest) (w : ω) : Prop :=
  manifest.needsWifi = true → Up handler w

theorem BringsUp.up {w after : ω} {calls : List (Called σ ω)} (keeps : KeepsWifi handler)
    (brings : BringsUp handler w calls true after) : Up handler after := by
  cases brings with
  | there up => exact keeps.asked w up
  | asked down left told => exact keeps.connect _ told

theorem SeeksWifi.met {manifest : Manifest} {failed : Bool} {w after : ω} {calls : List (Called σ ω)}
    (keeps : KeepsWifi handler) (seeks : SeeksWifi handler manifest failed w calls (.ok ()) after) :
    WifiMet handler manifest after := by
  cases seeks with
  | unneeded idle =>
    intro needed
    rw [idle] at needed
    contradiction
  | brought needed first brings => exact fun _ => brings.up keeps

/-- Seeing to the clock does not end wifi. -/
theorem SeeksClock.up {config : Config} {manifest : Manifest} {failed : Bool} {w after : ω} {calls : List (Called σ ω)}
    {result : Except StartError Unit} (keeps : KeepsWifi handler)
    (clocks : SeeksClock handler config manifest failed w calls result after) (up : Up handler w) :
    Up handler after := by
  cases clocks with
  | unneeded idle => exact up
  | valid needed shown => exact keeps.time w up
  | givenUp needed shown before => exact keeps.time w up
  | synced needed shown first left =>
    subst left
    exact keeps.setClock _ (keeps.time w up)

/-- Whenever a service is set up whose manifest needs wifi, wifi is there. -/
theorem Roster.installing_within_wifi (keeps : KeepsWifi handler) (registry : Registry κ ψ) (r : Roster σ)
    (key : TaskKey → κ) (hostDraws : Bool) (s : ψ) (w : ω) :
    ∀ a ∈ r.installing registry handler key hostDraws s w, a.SetsUpWithin (WifiMet handler) := by
  obtain ⟨-, last, looking, -⟩ := ends_startInstalled registry handler s w r key hostDraws
  refine looking.setsUpWithin ?_
  intro a manifest found connected clocked failed wifi clock seeks clocks made needed
  exact clocks.up keeps (seeks.met keeps needed)

namespace Roster

/-- What runs for a task of the services. -/
def work (r : Roster σ) : TaskKey → Work κ σ (Except Fault Outcome × Roster σ)
  | .loop number => r.loopOnce number
  | .draw => do
    let (outcome, r) ← r.drawScheduled
    return (.ok outcome, r)

/-- In a run for a task of the services no service is set up; a loop that runs is that of the slot, and if its
manifest needs wifi in the loop then what is there is as `met` says. This is so whatever the registry answers. -/
def LoopsWithin (handler : Handler (World σ) ω) (met : ω → Prop) (r : Roster σ) (task : TaskKey) (w : ω) : Prop :=
  ∀ (κ ψ : Type) (registry : Registry κ ψ) (s : ψ), ∀ c ∈ (r.work task).calls registry handler s w,
    (∀ service, c.call ≠ .setUp service) ∧
      ∀ service, c.call = .loop service → ∃ number slot, task = .loop number ∧ r.slots[number]? = some slot ∧
        slot.service = service ∧ (slot.manifest.wifiAtLoop = true → met c.before)

/-- Calls that neither set up a service nor run a loop. -/
def Draws : Call σ → Prop
  | .setUp _ | .loop _ => False
  | _ => True

theorem only_drawing (numbers : List Nat) (d : Drawing σ) :
    Program.Only Draws (Drawing.through numbers d : Work κ σ (Drawing σ)) := by
  induction numbers generalizing d with
  | nil => trivial
  | cons number rest ih =>
    refine .bind ?_ fun d => ih d
    unfold Drawing.slot
    cases d.slots[number]? with
    | none => trivial
    | some slot =>
      refine .bind (Program.only_call.mpr ⟨trivial, fun _ => trivial⟩) ?_
      rintro ⟨result, service⟩
      cases result with
      | ok report =>
        simp only
        cases report.interval? <;> exact trivial
      | error e => exact trivial

theorem only_drawScheduled (r : Roster σ) :
    Program.Only Draws (r.drawScheduled : Work κ σ (Outcome × Roster σ)) := by
  unfold drawScheduled
  refine .bind (Program.only_call.mpr ⟨trivial, fun _ => trivial⟩) fun _ => ?_
  refine .bind (Program.only_call.mpr ⟨trivial, fun _ => trivial⟩) fun budget => ?_
  refine .bind (only_drawing r.drawList _) fun d => ?_
  cases d.soonest with
  | none => exact ⟨trivial, fun _ => trivial⟩
  | some interval =>
    simp only
    split
    · exact ⟨trivial, fun _ => trivial⟩
    · exact ⟨trivial, fun _ => trivial⟩

/-- How a run of a loop sees to wifi, if it needs to. -/
theorem ends_wifiIf {registry : Registry κ ψ} {s : ψ} {w : ω} {α : Type} {needed : Bool} {next : Bool → Work κ σ α}
    {post : List (Called σ ω) → α → ψ → ω → Prop} (keeps : KeepsWifi handler)
    (runs : ∀ calls up w', (∀ c ∈ calls, Draws c.call) → (needed = true → up = true → Up handler w') →
      Program.Ends registry handler (fun more => post (calls ++ more)) (next up) s w') :
    Program.Ends registry handler post (if needed then Work.bringUpWifi >>= next else pure true >>= next) s w := by
  cases needed with
  | false => exact runs [] true w (by simp) fun wrong => by contradiction
  | true =>
    simp only [↓reduceIte, Program.ends_bind]
    refine Work.ends_bringUpWifi.mono ?_
    rintro calls up _ w' ⟨rfl, brings⟩
    refine runs calls up w' ?_ fun _ there => (there ▸ brings).up keeps
    cases brings <;> simp [Handler.called, Draws]

/-- A call in a run for a loop: it sets up no service, and a loop that it runs is that of the slot, with wifi there if
the slot's manifest needs that in the loop. -/
def LoopCall (handler : Handler (World σ) ω) (slot? : Option (Slot σ)) (c : Called σ ω) : Prop :=
  (∀ service, c.call ≠ .setUp service) ∧ ∀ service, c.call = .loop service → ∃ slot, slot? = some slot ∧
    slot.service = service ∧ (slot.manifest.wifiAtLoop = true → Up handler c.before)

theorem LoopCall.of_draws {slot? : Option (Slot σ)} {c : Called σ ω} (draws : Draws c.call) :
    LoopCall handler slot? c := by
  refine ⟨fun service call => ?_, fun service call => ?_⟩
  · rw [call] at draws
    exact draws.elim
  · rw [call] at draws
    exact draws.elim

/-- A loop that needs wifi runs only after wifi was found or brought up. -/
theorem ends_loopOnce (registry : Registry κ ψ) (s : ψ) (w : ω) (keeps : KeepsWifi handler) (r : Roster σ)
    (number : Nat) :
    Program.Ends registry handler (fun calls _ _ _ => ∀ c ∈ calls, LoopCall handler r.slots[number]? c)
      (r.loopOnce number) s w := by
  unfold loopOnce
  cases r.slots[number]? with
  | none => exact fun c none => absurd none List.not_mem_nil
  | some slot =>
    refine ends_wifiIf keeps fun calls up w' quiet met => ?_
    have before : ∀ c ∈ calls, LoopCall handler (some slot) c := fun c member => .of_draws (quiet c member)
    cases up with
    | false =>
      simp only [Bool.false_eq_true, ↓reduceIte, Program.ends_bind, Work.ends_log, Program.ends_pure, List.append_nil]
      exact before
    | true =>
      have runs : LoopCall handler (some slot) (handler.called (.loop slot.service) w') :=
        ⟨fun service wrong => (by cases wrong),
          fun service call => ⟨slot, rfl, Call.loop.inj call, fun needed => met needed rfl⟩⟩
      have all := List.forall_mem_append.mpr ⟨before, List.forall_mem_singleton.mpr runs⟩
      simp only [↓reduceIte, Program.ends_bind, Work.on, Program.ends_call, Program.ends_done]
      obtain ⟨result, service⟩ := (handler (.loop slot.service) w').answer
      cases result with
      | ok outcome => exact all
      | error e => exact all

/-- No task of the services sets up a service, and every loop runs within wifi if it needs it. -/
theorem loopsWithin (keeps : KeepsWifi handler) (r : Roster σ) (task : TaskKey) (w : ω) :
    r.LoopsWithin handler (Up handler) task w := by
  intro κ ψ registry s c member
  cases task with
  | loop number =>
    obtain ⟨early, loops⟩ := ends_loopOnce registry s w keeps r number c member
    refine ⟨early, fun service call => ?_⟩
    obtain ⟨slot, there, same, met⟩ := loops service call
    exact ⟨number, slot, rfl, there, same, met⟩
  | draw =>
    have only : Program.Only Draws (r.work .draw : Work κ σ _) :=
      (only_drawScheduled r).bind fun _ => trivial
    obtain ⟨early, loops⟩ : LoopCall handler none c := .of_draws (only.calls registry handler s w c member)
    refine ⟨early, fun service call => ?_⟩
    obtain ⟨slot, none, -⟩ := loops service call
    contradiction

end Roster

/-- The manifest is one that the store has for the app. Wifi is needed in the loop as it says, and if it says nothing,
as at setup. -/
def Documented (handler : Handler (World σ) ω) (name : AppName) (manifest : Manifest) : Prop :=
  ∃ text seen, Interface.given handler (.manifest name longestManifest) (.ok text) ∧
    Manifest.Reader.read text.toList = .ok seen ∧ seen.flag? .wifiSetup = some manifest.wifiAtSetup ∧
    manifest.wifiAtLoop = (seen.flag? .wifiLoop).getD manifest.wifiAtSetup

/-- A member that has to be there is there where the manifest is accepted. -/
theorem bound {α β : Type} {name : String} {value : Option α} {next : α → Except Manifest.Rejection β} {b : β}
    (accepted : (do next (← Manifest.member name value)) = .ok b) : ∃ a, value = some a ∧ next a = .ok b := by
  cases value with
  | none => contradiction
  | some a => exact ⟨a, rfl, accepted⟩

theorem documented_of_parse {name : AppName} {text : String} {manifest : Manifest}
    (given : Interface.given handler (.manifest name longestManifest) (.ok text))
    (parsed : Manifest.parse text = .ok manifest) : Documented handler name manifest := by
  unfold Manifest.parse at parsed
  cases read : Manifest.Reader.read text.toList with
  | error cause =>
    rw [read] at parsed
    contradiction
  | ok seen =>
    rw [read] at parsed
    refine ⟨text, seen, given, read, ?_⟩
    obtain ⟨wifi, -, parsed⟩ := bound parsed
    obtain ⟨atSetup, setup, parsed⟩ := bound parsed
    obtain ⟨version, -, parsed⟩ := bound parsed
    obtain ⟨clock, -, parsed⟩ := bound parsed
    obtain ⟨loop, -, parsed⟩ := bound parsed
    obtain ⟨draw, -, parsed⟩ := bound parsed
    obtain rfl := Except.ok.inj parsed
    exact ⟨setup, rfl⟩

namespace Slot

/-- What a slot is known by: its app and the manifest. -/
def label (slot : Slot σ) : AppName × Manifest := (slot.name, slot.manifest)

/-- A change that leaves each slot its label leaves the labels. -/
theorem map_label_modify {slots : List (Slot σ)} {number : Nat} {f : Slot σ → Slot σ}
    (same : ∀ slot, (f slot).label = slot.label) : (slots.modify number f).map label = slots.map label := by
  apply List.ext_getElem?
  intro i
  simp only [List.getElem?_map, List.getElem?_modify]
  cases slots[i]? with
  | none => rfl
  | some slot => by_cases changed : number = i <;> simp [changed, same]

end Slot

namespace Roster

variable {registry : Registry κ ψ} {rely : (World σ).Rely} {s : ψ}

theorem ensures_loopOnce_labels (r : Roster σ) (number : Nat) :
    Program.Ensures registry rely (fun ran _ => ran.2.slots.map Slot.label = r.slots.map Slot.label)
      (r.loopOnce number) s := by
  unfold loopOnce
  cases r.slots[number]? with
  | none => rfl
  | some slot =>
    refine Work.ensures_wifiIf fun wifi => ?_
    cases wifi with
    | false => rfl
    | true =>
      simp only [↓reduceIte, Program.ensures_bind, Work.on, Program.ensures_call, Program.ensures_done]
      rintro ⟨result, service⟩ -
      cases result with
      | ok outcome => exact Slot.map_label_modify fun _ => rfl
      | error e => exact Slot.map_label_modify fun _ => rfl

theorem ensures_through_labels (numbers : List Nat) (d : Drawing σ) :
    Program.Ensures registry rely (fun drawn _ => drawn.slots.map Slot.label = d.slots.map Slot.label)
      (Drawing.through numbers d) s := by
  induction numbers generalizing d s with
  | nil => rfl
  | cons number rest ih =>
    rw [Drawing.through, Program.ensures_bind]
    have kept : Program.Ensures registry rely (fun drawn _ => drawn.slots.map Slot.label = d.slots.map Slot.label)
        (d.slot number) s := by
      unfold Drawing.slot
      cases d.slots[number]? with
      | none => rfl
      | some slot =>
        simp only [Program.ensures_bind, Work.on, Program.ensures_call, Program.ensures_done]
        rintro ⟨result, service⟩ -
        have same (keeps : Bool) : (d.slots.modify number fun s => { s with service, draws := keeps }).map Slot.label =
            d.slots.map Slot.label := Slot.map_label_modify fun _ => rfl
        cases result with
        | ok report =>
          simp only
          cases report.interval? with
          | some interval => exact same true
          | none => exact same false
        | error e => exact same false
    exact kept.mono fun drawn after same => (ih drawn).mono fun last _ kept => kept.trans same

/-- No task of the services changes what the slots are known by. -/
theorem ensures_work_labels (r : Roster σ) (task : TaskKey) :
    Program.Ensures registry rely (fun ran _ => ran.2.slots.map Slot.label = r.slots.map Slot.label)
      (r.work task) s := by
  cases task with
  | loop number => exact ensures_loopOnce_labels r number
  | draw =>
    simp only [work, drawScheduled, Program.ensures_bind, Work.on, Program.ensures_call, Program.ensures_done]
    intro _ _ budget _
    refine (ensures_through_labels r.drawList _).mono fun d _ same => ?_
    cases d.soonest with
    | none => exact fun _ _ => same
    | some interval =>
      simp only
      split
      · exact fun _ _ => same
      · exact fun _ _ => same

/-- Every slot has a manifest that the store has for its app. -/
def Known (handler : Handler (World σ) ω) (r : Roster σ) : Prop :=
  ∀ slot ∈ r.slots, Documented handler slot.name slot.manifest

theorem known_iff {r : Roster σ} :
    r.Known handler ↔ ∀ label ∈ r.slots.map Slot.label, Documented handler label.1 label.2 := by
  simp only [Known, List.forall_mem_map, Slot.label]

theorem Known.congr {r last : Roster σ} (known : r.Known handler)
    (same : last.slots.map Slot.label = r.slots.map Slot.label) : last.Known handler := by
  rw [known_iff, same]
  exact known_iff.mp known

end Roster

theorem LookingAll.known {hostDraws failed : Bool} {indices : List Nat} {r last : Roster σ} {w after : ω}
    {attempts : List (Attempt σ ω)} (looking : LookingAll handler hostDraws indices failed r w attempts last after)
    (known : r.Known handler) : last.Known handler := by
  induction looking with
  | done failed r w => exact known
  | next first told others ih =>
    refine ih ?_
    cases first with
    | nameless none => exact known
    | skipped named readying placed => exact known
    | started named readying placed =>
      cases placed with
      | enlisted slot room loopTask drawList =>
        obtain ⟨name, text, given, parsed⟩ := readying.made
        refine List.forall_mem_append.mpr ⟨known, List.forall_mem_singleton.mpr ?_⟩
        exact documented_of_parse (name ▸ ⟨_, given⟩) parsed

namespace Roster

/-- What runs for each key: the tasks of the services, and others that know nothing of the roster. -/
def code (handler : Handler (World σ) ω) (task? : κ → Option TaskKey) (others : TaskCode κ ω) :
    TaskCode κ (Roster σ × ω) := fun key shared =>
  match task? key with
  | some task => do
    let ((result, r), w) ← (shared.1.work task).serve handler shared.2
    return (result, (r, w))
  | none => do
    let (result, w) ← others key shared.2
    return (result, (shared.1, w))

variable [ToString κ] [TickTimer τ]

/-- The services of the installed apps, started on an empty roster. -/
def started (handler : Handler (World σ) ω) (key : TaskKey → κ) (most : Nat) (config : Config) (hostDraws : Bool)
    (s : Scheduler κ τ) (w : ω) : Reply (Scheduler κ τ × ω) (Bool × Roster σ) :=
  ((empty most config).startInstalled key hostDraws).run Scheduler.registry handler s w

/-- The states that starting the installed services leads to, with ticks among any other tasks, any changes of the
network and the surroundings, and anything else that happens to the scheduler. -/
inductive Course (handler : Handler (World σ) ω) (key : TaskKey → κ) (task? : κ → Option TaskKey) (most : Nat)
    (config : Config) (hostDraws : Bool) : Roster σ → Scheduler κ τ → ω → Prop
  | begun (s : Scheduler κ τ) (w : ω) :
      Course handler key task? most config hostDraws (started handler key most config hostDraws s w).answer.2
        (started handler key most config hostDraws s w).state.1 (started handler key most config hostDraws s w).state.2
  | ticked {r : Roster σ} {s : Scheduler κ τ} {w : ω} (earlier : Course handler key task? most config hostDraws r s w)
      (others : TaskCode κ ω) :
      Course handler key task? most config hostDraws (s.tick (code handler task? others) (r, w)).state.2.1
        (s.tick (code handler task? others) (r, w)).state.1 (s.tick (code handler task? others) (r, w)).state.2.2
  | changed {r : Roster σ} {s : Scheduler κ τ} {w : ω} (earlier : Course handler key task? most config hostDraws r s w)
      (w' : ω) : Course handler key task? most config hostDraws r s w'
  | acted {r : Roster σ} {s : Scheduler κ τ} {w : ω} (earlier : Course handler key task? most config hostDraws r s w)
      (a : Action κ) : Course handler key task? most config hostDraws r (s.act a) w

theorem code_known (task? : κ → Option TaskKey) (others : TaskCode κ ω) (key : κ) (shared : Roster σ × ω) (p : Pass κ)
    (known : shared.1.Known handler) :
    (((code handler task? others) key shared).run Pass.registry p).answer.2.1.Known handler := by
  obtain ⟨r, w⟩ := shared
  have kept : Program.Ensures Pass.registry (Interface.anyone .silent) (fun ran _ => ran.2.1.Known handler)
      (code handler task? others key (r, w)) p := by
    unfold code
    cases task? key with
    | some task =>
      simp only [Program.ensures_bind]
      exact (Program.ensures_serve (ensures_work_labels r task) (Interface.anyone_kept handler) w).mono
        fun _ _ same => known.congr same
    | none =>
      simp only [Program.ensures_bind]
      exact .of_always (fun _ _ => known) _ _
  exact Script.ensures_run kept

/-- In all of them the slots have manifests that the store has for their apps. -/
theorem Course.known {key : TaskKey → κ} {task? : κ → Option TaskKey} {most : Nat} {config : Config} {hostDraws : Bool}
    {r : Roster σ} {s : Scheduler κ τ} {w : ω} (course : Course handler key task? most config hostDraws r s w) :
    r.Known handler := by
  induction course with
  | begun s w =>
    obtain ⟨-, last, looking, drawingTask, same⟩ :=
      ends_startInstalled Scheduler.registry handler s w (empty most config) key hostDraws
    rw [started, same]
    exact looking.known fun slot none => absurd none List.not_mem_nil
  | @ticked r s w earlier others ih =>
    have known : (r, w).1.Known handler := ih
    exact Scheduler.shared_tick (motive := fun shared : Roster σ × ω => shared.1.Known handler)
      (code_known task? others) s known
  | changed earlier w' ih => exact ih
  | acted earlier a ih => exact ih

end Roster
end ConferenceBadge.Service
