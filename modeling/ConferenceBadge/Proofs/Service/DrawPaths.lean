import ConferenceBadge.Emulator
import ConferenceBadge.Proofs.Service.Drawing

/-!
The two ways of drawing the services. The drawing task decides which slots go on, and an extra drawing does not; for
the rest they do the same. Two programs go together (`Program.Together`) if they make the same calls and leave the
same surroundings. Slot by slot the two drawings do (`Roster.together_drawOnce`), so they give the services the same
rows and leave them and the display alike (`Roster.drawnAside_as_scheduled`); and the badge draws its home and sleep
screens in this way (`Body.drawScreen_eq`).
-/
namespace ConferenceBadge

namespace Program

variable {κ κ' ψ ψ' ω α β γ δ : Type} {I : Interface}

/-- Two programs run against registries of their own on the same surroundings: they make the same calls, leave the
registries as they are and the same surroundings, and end with results that are related. -/
def Together (registry : Registry κ ψ) (registry' : Registry κ' ψ') (handler : Handler I ω) (post : α → β → Prop)
    (p : Program κ I α) (q : Program κ' I β) (s : ψ) (s' : ψ') (w : ω) : Prop :=
  let one := p.run registry handler s w
  let other := q.run registry' handler s' w
  p.calls registry handler s w = q.calls registry' handler s' w ∧
    (∃ last, one.state = (s, last) ∧ other.state = (s', last)) ∧ post one.answer other.answer

variable {registry : Registry κ ψ} {registry' : Registry κ' ψ'} {handler : Handler I ω} {post : α → β → Prop}
  {s : ψ} {s' : ψ'} {w : ω}

theorem Together.pure {a : α} {b : β} (related : post a b) :
    Together registry registry' handler post (pure a : Program κ I α) (pure b : Program κ' I β) s s' w :=
  ⟨rfl, ⟨w, rfl, rfl⟩, related⟩

theorem Together.call {c : I.Call} {next : I.Answer c → Program κ I α} {next' : I.Answer c → Program κ' I β}
    (rest : Together registry registry' handler post (next (handler c w).answer) (next' (handler c w).answer) s s'
      (handler c w).state) :
    Together registry registry' handler post (call c next) (call c next') s s' w := by
  obtain ⟨calls, left, related⟩ := rest
  exact ⟨congrArg (handler.called c w :: ·) calls, left, related⟩

theorem together_noting {lines lines' : List Log.Line} {p : Program κ I α} {q : Program κ' I β} :
    Together registry registry' handler post (noting lines p) (noting lines' q) s s' w ↔
      Together registry registry' handler post p q s s' w := by
  induction lines with
  | cons line rest ih => exact ih
  | nil =>
    induction lines' with
    | cons line rest ih => exact ih
    | nil => rfl

theorem Together.bind {mid : γ → δ → Prop} {p : Program κ I γ} {q : Program κ' I δ} {f : γ → Program κ I α}
    {g : δ → Program κ' I β} (first : Together registry registry' handler mid p q s s' w)
    (rest : ∀ a b w, mid a b → Together registry registry' handler post (f a) (g b) s s' w) :
    Together registry registry' handler post (p >>= f) (q >>= g) s s' w := by
  obtain ⟨calls, ⟨last, one, other⟩, related⟩ := first
  obtain ⟨later, left, ends⟩ := rest _ _ last related
  simp only [Together, calls_bind, run_andThen, Reply.andThen, one, other]
  exact ⟨by rw [calls, later], left, ends⟩

theorem Together.mono {weaker : α → β → Prop} {p : Program κ I α} {q : Program κ' I β}
    (together : Together registry registry' handler post p q s s' w) (implied : ∀ a b, post a b → weaker a b) :
    Together registry registry' handler weaker p q s s' w :=
  ⟨together.1, together.2.1, implied _ _ together.2.2⟩

end Program

namespace Service

variable {κ κ' σ ψ ψ' ω : Type}

namespace Slot

/-- A slot but for its mark. -/
def unmarked (slot : Slot σ) : Slot σ := { slot with draws := false }

variable {slots others : List (Slot σ)} {number : Nat} {f g h : Slot σ → Slot σ}

theorem map_unmarked_modify (same : ∀ slot, (f slot).unmarked = h slot.unmarked) :
    (slots.modify number f).map unmarked = (slots.map unmarked).modify number h := by
  apply List.ext_getElem?
  intro i
  simp only [List.getElem?_map, List.getElem?_modify]
  cases slots[i]? with
  | none => rfl
  | some slot => by_cases changed : number = i <;> simp [changed, same]

theorem unmarked_getElem? (same : slots.map unmarked = others.map unmarked) (number : Nat) :
    slots[number]?.map unmarked = others[number]?.map unmarked := by
  rw [← List.getElem?_map, ← List.getElem?_map, same]

end Slot

namespace Roster

variable {registry : Registry κ ψ} {registry' : Registry κ' ψ'} {handler : Handler (World σ) ω} {s : ψ} {s' : ψ'}

theorem together_on {α β : Type} {post : α → β → Prop} {c : Call σ} {next : Call.Answer c → Work κ σ α}
    {next' : Call.Answer c → Work κ' σ β} {w : ω}
    (rest : Program.Together registry registry' handler post (next (handler c w).answer) (next' (handler c w).answer) s
      s' (handler c w).state) :
    Program.Together registry registry' handler post (Work.on c >>= next) (Work.on c >>= next') s s' w := .call rest

/-- What the second of two programs notes makes no difference. -/
theorem together_log {α β : Type} {post : α → β → Prop} {level : Log.Level} {text : String} {p : Work κ σ α}
    {q : Unit → Work κ' σ β} {w : ω} (rest : Program.Together registry registry' handler post p (q ()) s s' w) :
    Program.Together registry registry' handler post p (Work.log level text >>= q) s s' w := rest

/-- What is noted of a slot that was drawn outside the scheduler. -/
def failures (name : AppName) : Except Error DrawResult → List Log.Line
  | .ok _ => []
  | .error e => [⟨.warn, .services, s!"{name.text} draw: {e.message}"⟩]

/-- Drawing the next slot is one call, with the rows that are left; the rest goes by its answer. -/
theorem drawOnce_cons {r : Roster σ} {number : Nat} {slot : Slot σ} (there : r.slots[number]? = some slot)
    (rest : List Nat) (budget : Nat) (w : ω) :
    (drawOnce (number :: rest) budget r : Work κ σ (Roster σ)) =
      .call (.draw slot.service budget) fun answer : Except Error DrawResult × σ =>
        let c : Called σ ω := ⟨.draw slot.service budget, w, answer⟩
        .noting (failures slot.name answer.1)
          (drawOnce rest (budget - c.spaceUsed) (r.modify number fun s => { s with service := answer.2 })) := by
  rw [drawOnce, there]
  refine congrArg (Program.call _) (funext ?_)
  rintro ⟨result, service⟩
  cases result with
  | ok report => rfl
  | error e => rfl

/-- An extra drawing leaves the marks, the draw list and the drawing task as they were, and the slots as the drawing
task leaves them but for the marks. -/
structure Alongside (r last : Roster σ) (drawn : List (Slot σ)) : Prop where
  kept : last = { r with slots := last.slots }
  marks : Slot.marks last.slots = Slot.marks r.slots
  slots : last.slots.map Slot.unmarked = drawn.map Slot.unmarked

/-- Slot by slot the two drawings go together. -/
theorem together_drawOnce (numbers : List Nat) {r : Roster σ} {d : Drawing σ} {w : ω}
    (same : r.slots.map Slot.unmarked = d.slots.map Slot.unmarked) :
    Program.Together registry registry' handler (fun last drawn => Alongside r last drawn.slots)
      (drawOnce numbers d.budget r) (Drawing.through numbers d) s s' w := by
  induction numbers generalizing r d w with
  | nil => exact .pure ⟨rfl, rfl, same⟩
  | cons number rest ih =>
    have here := Slot.unmarked_getElem? same number
    cases drawn : d.slots[number]? with
    | none =>
      rw [drawn, Option.map_none, Option.map_eq_none_iff] at here
      rw [drawOnce, here, Drawing.through, Drawing.slot, drawn]
      exact ih same
    | some slot =>
      rw [drawn, Option.map_some] at here
      obtain ⟨other, there, alike⟩ := Option.map_eq_some_iff.mp here
      have service : other.service = slot.service := (Slot.mk.inj alike).2.2.1
      rw [drawOnce_cons there rest d.budget w, Drawing.through_cons d drawn rest w, service]
      let c : Called σ ω := handler.called (.draw slot.service d.budget) w
      let answered (s : Slot σ) : Slot σ := { s with service := c.answer.2 }
      have drawnBy (s : Slot σ) : (s.drawnBy c).unmarked = answered s.unmarked := rfl
      have next : (r.modify number answered).slots.map Slot.unmarked =
          (d.reported number c).slots.map Slot.unmarked := by
        show (r.slots.modify number answered).map _ = (d.slots.modify number _).map _
        rw [Slot.map_unmarked_modify (h := answered) fun _ => rfl, Slot.map_unmarked_modify drawnBy, same]
      refine .call (Program.together_noting.mpr ((ih next).mono ?_))
      rintro last drawn ⟨kept, marks, slots⟩
      refine ⟨?_, marks.trans (Slot.map_modify_same fun _ => rfl), slots⟩
      rw [kept]
      rfl

/-- An extra drawing from begin to end, outside the scheduler. -/
def drawnAside (r : Roster σ) : Work κ σ (Roster σ) := do
  Work.on .beginDrawing
  let drawn ← r.drawExtra
  Work.on .endDrawing
  return drawn

theorem together_drawnAside (registry : Registry κ ψ) (registry' : Registry κ' ψ') (handler : Handler (World σ) ω)
    (r : Roster σ) (s : ψ) (s' : ψ') (w : ω) :
    Program.Together registry registry' handler
      (fun last ran => Alongside r last ran.2.slots ∧ ran.2.config = r.config ∧ ran.2.capacity = r.capacity)
      r.drawnAside r.drawScheduled s s' w := by
  simp only [drawnAside, drawExtra, bind_assoc]
  refine together_on (together_on ?_)
  refine .bind (together_drawOnce r.drawList (d := ⟨r.slots, _, none, []⟩) rfl) fun last d w alongside => ?_
  cases d.soonest with
  | none => exact together_log (together_on (.pure ⟨alongside, rfl, rfl⟩))
  | some interval =>
    simp only
    split
    · exact together_log (together_on (.pure ⟨alongside, rfl, rfl⟩))
    · exact together_on (.pure ⟨alongside, rfl, rfl⟩)

end Roster
end Service

/-- The badge puts a screen on the panel by an extra drawing. -/
theorem Body.drawScreen_eq (b : Body) (screen : Screen) (now : Int) :
    let begun : Devices := { b.devices with panel := b.devices.panel.switchTo screen }
    let aside := b.roster.drawnAside.run Registry.absent (Devices.running now) () begun
    (b.drawScreen screen now).state = { b with devices := aside.state.2, roster := aside.answer } := by
  simp only [Body.drawScreen, Service.Roster.drawnAside, Service.Work.on, Program.run_andThen, Program.run,
    Program.runAlone, Reply.andThen]
  rfl

namespace Service.Roster

variable {κ κ' σ ψ ψ' ω : Type}

/-- The two ways of drawing agree. Whatever the roster, the services, the display and the registries, an extra drawing
from begin to end makes the calls that the drawing task makes, in the same order, on the same surroundings and with
the same answers, so the services are given the same rows; and it leaves the surroundings and the slots as the task
does, but for the marks of those that go on. The marks, the draw list and the handle of the drawing task it leaves as
they were. The badge does no more than this when it draws its home screen or its sleep screen. -/
theorem drawnAside_as_scheduled (registry : Registry κ ψ) (registry' : Registry κ' ψ') (handler : Handler (World σ) ω)
    (r : Roster σ) (s : ψ) (s' : ψ') (w : ω) :
    (let aside := r.drawnAside.run registry handler s w
      let scheduled := r.drawScheduled.run registry' handler s' w
      let last := aside.answer
      let drawn := scheduled.answer.2
      r.drawnAside.calls registry handler s w = r.drawScheduled.calls registry' handler s' w ∧
        (∃ after, aside.state = (s, after) ∧ scheduled.state = (s', after)) ∧
        last.slots.map Slot.unmarked = drawn.slots.map Slot.unmarked ∧
        last = { drawn with slots := last.slots, drawList := r.drawList, drawingTask := r.drawingTask } ∧
        Slot.marks last.slots = Slot.marks r.slots) ∧
    ∀ (b : Body) (screen : Screen) (now : Int),
      let begun : Devices := { b.devices with panel := b.devices.panel.switchTo screen }
      let aside := b.roster.drawnAside.run Registry.absent (Devices.running now) () begun
      (b.drawScreen screen now).state = { b with devices := aside.state.2, roster := aside.answer } := by
  obtain ⟨calls, left, ⟨kept, marks, slots⟩, config, capacity⟩ :=
    together_drawnAside registry registry' handler r s s' w
  refine ⟨⟨calls, left, slots, kept.trans ?_, marks⟩, Body.drawScreen_eq⟩
  rw [config, capacity]

/-- The task takes the two services that fail off the draw list; an extra drawing leaves them on it, and makes the same
calls. -/
theorem drawnAside_as_scheduled_twoDrawers :
    let r : Roster String := (Roster.empty 3 .standard).after startedTwice
    let s : Scheduler Key Unit := .empty 3 ()
    r.drawnAside.calls Scheduler.registry twoDrawers s () = r.drawScheduled.calls Scheduler.registry twoDrawers s () ∧
      (r.drawnAside.run Scheduler.registry twoDrawers s ()).answer.drawList = [0, 1, 2] ∧
      (r.drawScheduled.run Scheduler.registry twoDrawers s ()).answer.2.drawList = [1] := by
  intro r s
  obtain ⟨⟨calls, -⟩, -⟩ := drawnAside_as_scheduled Scheduler.registry Scheduler.registry twoDrawers r s s ()
  exact ⟨calls, by decide +kernel, by decide +kernel⟩

end Service.Roster
end ConferenceBadge
