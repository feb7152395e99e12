import ConferenceBadge.Emulator
import ConferenceBadge.Proofs.Service.Running

/-!
What services leave of a screen. They draw from the bottom up, a row each, so as long as few of them draw
the rows at the top stay those of the screen (`TextPage.Bears`). Drawing begins with the rows of the screen
and never takes a row away, so what it puts on the panel is not blank (`Body.drawSleepScreen_ok`).
-/
namespace ConferenceBadge

namespace TextPage

theorem lookup_place_other {y z : Nat} (other : z ≠ y) (text : String) (rows : List (Nat × String)) :
    (place y text rows).lookup z = rows.lookup z := by
  have apart : (z == y) = false := by simpa using other
  induction rows with
  | nil => simp [place, List.lookup_cons, apart]
  | cons row below ih =>
    obtain ⟨there, shown⟩ := row
    simp only [place]
    split
    · simp [List.lookup_cons, apart]
    · split
      · next same =>
        obtain rfl : y = there := same
        simp [List.lookup_cons, apart]
      · simp only [List.lookup_cons, ih]

theorem place_ne_nil (y : Nat) (text : String) (rows : List (Nat × String)) : place y text rows ≠ [] := by
  cases rows with
  | nil => exact List.cons_ne_nil _ _
  | cons row below =>
    simp only [place]
    split
    · exact List.cons_ne_nil _ _
    · split <;> exact List.cons_ne_nil _ _

/-- The page shows a screen in the two rows at the top, which a screen writes and few services leave. -/
def Bears (page : TextPage) (screen : Screen) : Prop :=
  ∀ y, y < 2 * rowHeight → page.rows.lookup y = (Panel.base screen).rows.lookup y

theorem Bears.write {page : TextPage} {screen : Screen} (bears : page.Bears screen) {y : Nat}
    (low : 2 * rowHeight ≤ y) (text : String) : (page.write y text).Bears screen := by
  intro z top
  have other : z ≠ y := by omega
  exact (lookup_place_other other _ _).trans (bears z top)

end TextPage

theorem Panel.base_rows_ne_nil (screen : Screen) : (Panel.base screen).rows ≠ [] := by
  cases screen with
  | home => exact TextPage.place_ne_nil _ _ _
  | sleeping => exact TextPage.place_ne_nil _ _ _

namespace DemoService

/-- Whether a service has an entry point for drawing. -/
def hasDrawing : DemoService → Bool
  | clock | weather _ => true
  | counter .. | flaky _ => false

theorem hasDrawing_loop (service : DemoService) : service.loop.state.hasDrawing = service.hasDrawing := by
  cases service <;> rfl

/-- The pixel rows that a service may use up. -/
def appetite (service : DemoService) : Nat := if service.hasDrawing then TextPage.rowHeight else 0

/-- A service uses up no more than its appetite, and writes at the bottom of the rows that are left. -/
theorem draw_frame (service : DemoService) {page : TextPage} (budget : Nat) (now : Int) {screen : Screen}
    (bears : page.Bears screen) (room : 2 * TextPage.rowHeight + service.appetite ≤ budget) :
    (service.draw page budget now).2.Bears screen ∧
      ∀ report, (service.draw page budget now).1 = .ok report → report.spaceUsed ≤ service.appetite := by
  have enough : ¬ budget < TextPage.rowHeight := by
    simp only [TextPage.rowHeight] at room ⊢
    omega
  simp only [draw, enough, ↓reduceIte]
  cases service with
  | clock =>
    simp only [appetite, hasDrawing, ↓reduceIte] at room ⊢
    refine ⟨bears.write (by omega) _, ?_⟩
    rintro report same
    obtain rfl := Except.ok.inj same
    exact Nat.le_refl _
  | weather fetches =>
    simp only [appetite, hasDrawing, ↓reduceIte] at room ⊢
    refine ⟨bears.write (by omega) _, ?_⟩
    rintro report same
    obtain rfl := Except.ok.inj same
    exact Nat.le_refl _
  | counter count limit => exact ⟨bears, fun report same => by contradiction⟩
  | flaky runs => exact ⟨bears, fun report same => by contradiction⟩

theorem draw_rows_ne_nil (service : DemoService) {page : TextPage} (budget : Nat) (now : Int)
    (shows : page.rows ≠ []) : (service.draw page budget now).2.rows ≠ [] := by
  unfold draw
  split
  · exact shows
  · cases service with
    | clock => exact TextPage.place_ne_nil _ _ _
    | weather fetches => exact TextPage.place_ne_nil _ _ _
    | counter count limit => exact shows
    | flaky runs => exact shows

end DemoService

namespace Service

/-- Which slots hold a service that draws. -/
def Slot.drawings (slots : List (Slot DemoService)) : List Bool := slots.map (·.service.hasDrawing)

def Slot.drawers (slots : List (Slot DemoService)) (numbers : List Nat) : Nat :=
  numbers.countP fun number => (drawings slots)[number]? = some true

namespace Slot

variable {slots others : List (Slot DemoService)} {numbers : List Nat}

theorem appetite_eq {number : Nat} {slot : Slot DemoService} (there : slots[number]? = some slot) :
    TextPage.rowHeight * drawers slots [number] = slot.service.appetite := by
  have kind : (drawings slots)[number]? = some slot.service.hasDrawing := by simp [drawings, there]
  simp only [drawers, List.countP_singleton, kind, DemoService.appetite]
  cases slot.service.hasDrawing <;> rfl

theorem drawers_congr (same : drawings others = drawings slots) : drawers others numbers = drawers slots numbers := by
  simp only [drawers, same]

theorem drawers_cons (number : Nat) (rest : List Nat) :
    drawers slots (number :: rest) = drawers slots [number] + drawers slots rest := by
  simp only [drawers, List.countP_cons, List.countP_nil]
  omega

theorem drawings_modify {number : Nat} {slot : Slot DemoService} {f : Slot DemoService → Slot DemoService}
    (there : slots[number]? = some slot) (same : (f slot).service.hasDrawing = slot.service.hasDrawing) :
    drawings (slots.modify number f) = drawings slots := by
  apply List.ext_getElem?
  intro i
  simp only [drawings, List.getElem?_map, List.getElem?_modify]
  by_cases here : number = i
  · subst here
    simp [there, same]
  · simp [here]

/-- Two rows at the top are left where no more than two slots draw. -/
theorem room_of_drawers_le (few : drawers slots numbers ≤ 2) :
    2 * TextPage.rowHeight + TextPage.rowHeight * drawers slots numbers ≤ Panel.height := by
  simp only [TextPage.rowHeight, Panel.height]
  omega

end Slot

namespace Roster

variable {κ σ : Type} {registry : Registry κ σ} {quiet : Interface.silent.Rely} {s : σ} {screen : Screen}

/-- What drawing slots keeps: the page shows the screen, the panel is set to what it was, and the slots draw
what they drew. -/
structure Painted (screen : Screen) (before after : Panel) (slots last : List (Slot DemoService)) : Prop where
  bears : after.back.Bears screen
  screen : after.screen = before.screen
  drawings : Slot.drawings last = Slot.drawings slots

theorem Painted.trans {before between after : Panel} {slots midway last : List (Slot DemoService)}
    (first : Painted screen before between slots midway) (second : Painted screen between after midway last) :
    Painted screen before after slots last :=
  ⟨second.bears, second.screen.trans first.screen, second.drawings.trans first.drawings⟩

theorem Drawing.ensures_slot_served (d : Drawing DemoService) (number : Nat) (now : Int) (devices : Devices)
    (bears : devices.panel.back.Bears screen)
    (room : 2 * TextPage.rowHeight + TextPage.rowHeight * Slot.drawers d.slots [number] ≤ d.budget) :
    Program.Ensures registry quiet
      (fun served after => after = s ∧ Painted screen devices.panel served.2.panel d.slots served.1.slots ∧
        (served.1.kept = d.kept ∨ served.1.kept = d.kept ++ [number]) ∧
        d.budget ≤ served.1.budget + TextPage.rowHeight * Slot.drawers d.slots [number])
      ((d.slot number).serve (Devices.running now) devices) s := by
  unfold Drawing.slot
  cases there : d.slots[number]? with
  | none => exact ⟨rfl, ⟨bears, rfl, rfl⟩, .inl rfl, Nat.le_add_right _ _⟩
  | some slot =>
    rw [Slot.appetite_eq there] at room ⊢
    obtain ⟨stays, spent⟩ := slot.service.draw_frame d.budget now bears room
    have same (keeps : Bool) : Slot.drawings (d.drawn number slot.service keeps).slots = Slot.drawings d.slots :=
      Slot.drawings_modify there rfl
    simp only [Program.serve_andThen, Program.ensures_bind, Work.on]
    refine Program.ensures_serve_call.mpr ?_
    cases drawn : (slot.service.draw devices.panel.back d.budget now).1 with
    | error e =>
      simp only [Devices.running, Devices.world, drawn]
      exact ⟨rfl, ⟨stays, rfl, same false⟩, .inl rfl, Nat.le_add_right _ _⟩
    | ok report =>
      have less := spent report drawn
      have left : d.budget ≤ d.budget - report.spaceUsed + slot.service.appetite := by omega
      simp only [Devices.running, Devices.world, drawn, Program.serve, Program.ensures_done]
      cases report.interval? with
      | some interval => exact ⟨rfl, ⟨stays, rfl, same true⟩, .inr rfl, left⟩
      | none => exact ⟨rfl, ⟨stays, rfl, same false⟩, .inl rfl, left⟩

theorem Drawing.ensures_through_served (numbers : List Nat) (d : Drawing DemoService) (now : Int) (devices : Devices)
    (bears : devices.panel.back.Bears screen)
    (room : 2 * TextPage.rowHeight + TextPage.rowHeight * Slot.drawers d.slots numbers ≤ d.budget) :
    Program.Ensures registry quiet
      (fun served after => after = s ∧ Painted screen devices.panel served.2.panel d.slots served.1.slots ∧
        served.1.kept.Sublist (d.kept ++ numbers))
      ((Drawing.through numbers d).serve (Devices.running now) devices) s := by
  induction numbers generalizing d devices with
  | nil => exact ⟨rfl, ⟨bears, rfl, rfl⟩, List.sublist_append_left d.kept []⟩
  | cons number rest ih =>
    rw [Slot.drawers_cons, Nat.mul_add] at room
    rw [Drawing.through, Program.serve_andThen, Program.ensures_bind]
    refine (ensures_slot_served d number now devices bears (by omega)).mono ?_
    rintro drawn after ⟨rfl, painted, kept, budget⟩
    have left : 2 * TextPage.rowHeight + TextPage.rowHeight * Slot.drawers drawn.1.slots rest ≤ drawn.1.budget := by
      rw [Slot.drawers_congr painted.drawings]
      omega
    refine (ih drawn.1 drawn.2 painted.bears left).mono ?_
    rintro last after ⟨rfl, onwards, fewer⟩
    refine ⟨rfl, painted.trans onwards, fewer.trans ?_⟩
    rcases kept with equal | more
    · rw [equal]
      exact List.Sublist.append_left (List.sublist_cons_self number rest) _
    · have same : drawn.1.kept ++ rest = d.kept ++ number :: rest := by rw [more, ← List.append_cons]
      exact same ▸ List.Sublist.refl _

/-- What drawing keeps of a panel and a roster: the panel stays set to its screen and shows it, and no more
slots draw than before. -/
structure Drawn (before after : Panel) (r last : Roster DemoService) : Prop where
  screen : after.screen = before.screen
  shows : after.front.Bears before.screen
  drawers : Slot.drawers last.slots last.drawList ≤ Slot.drawers r.slots r.drawList

theorem ensures_drawScheduled_served (r : Roster DemoService) (now : Int) (devices : Devices)
    (few : Slot.drawers r.slots r.drawList ≤ 2) :
    Program.Ensures registry quiet
      (fun served after => after = s ∧ Drawn devices.panel served.2.panel r served.1.2)
      (r.drawScheduled.serve (Devices.running now) devices) s := by
  simp only [drawScheduled, Program.serve_andThen, Program.ensures_bind, Work.on]
  refine Program.ensures_serve_call.mpr (Program.ensures_serve_call.mpr ?_)
  refine (Drawing.ensures_through_served r.drawList
    { slots := r.slots, budget := Panel.height, soonest := none, kept := [] } now
    { devices with panel := devices.panel.beginDrawing } (fun y _ => rfl) (Slot.room_of_drawers_le few)).mono ?_
  rintro drawn after ⟨rfl, painted, fewer⟩
  have left : Slot.drawers drawn.1.slots drawn.1.kept ≤ Slot.drawers r.slots r.drawList := by
    rw [Slot.drawers_congr painted.drawings]
    exact fewer.countP_le
  have ended (drawingTask : Option Handle) : Drawn devices.panel drawn.2.panel.endDrawing r
      { r with slots := drawn.1.slots, drawList := drawn.1.kept, drawingTask } := ⟨painted.screen, painted.bears, left⟩
  cases drawn.1.soonest with
  | none => exact ⟨rfl, ended none⟩
  | some interval =>
    simp only
    split <;> exact ⟨rfl, ended r.drawingTask⟩

theorem ensures_drawOnce_served (numbers : List Nat) (budget : Nat) (r : Roster DemoService) (now : Int)
    (devices : Devices) (bears : devices.panel.back.Bears screen)
    (room : 2 * TextPage.rowHeight + TextPage.rowHeight * Slot.drawers r.slots numbers ≤ budget) :
    Program.Ensures registry quiet
      (fun served after => after = s ∧ Painted screen devices.panel served.2.panel r.slots served.1.slots ∧
        served.1.drawList = r.drawList)
      ((drawOnce numbers budget r).serve (Devices.running now) devices) s := by
  induction numbers generalizing budget r devices with
  | nil => exact ⟨rfl, ⟨bears, rfl, rfl⟩, rfl⟩
  | cons number rest ih =>
    rw [Slot.drawers_cons, Nat.mul_add] at room
    rw [drawOnce]
    cases there : r.slots[number]? with
    | none => exact ih budget r devices bears (by omega)
    | some slot =>
      rw [Slot.appetite_eq there] at room
      obtain ⟨stays, spent⟩ := slot.service.draw_frame budget now bears (by omega)
      let drew := ((Devices.running now) (.draw slot.service budget) devices).state
      let settled := r.modify number fun other => { other with service := slot.service }
      have painted : Painted screen devices.panel drew.panel r.slots settled.slots :=
        ⟨stays, rfl, Slot.drawings_modify there rfl⟩
      -- The budget that is left is all that the outcome decides.
      have onwards (left : Nat)
          (room : 2 * TextPage.rowHeight + TextPage.rowHeight * Slot.drawers r.slots rest ≤ left) :
          Program.Ensures registry quiet
            (fun served after => after = s ∧ Painted screen devices.panel served.2.panel r.slots served.1.slots ∧
              served.1.drawList = r.drawList)
            ((drawOnce rest left settled).serve (Devices.running now) drew) s := by
        rw [← Slot.drawers_congr painted.drawings] at room
        refine (ih left settled drew stays room).mono ?_
        rintro served after ⟨rfl, further, list⟩
        exact ⟨rfl, painted.trans further, list⟩
      simp only [Program.serve_andThen, Program.ensures_bind, Work.on]
      refine Program.ensures_serve_call.mpr ?_
      cases drawn : (slot.service.draw devices.panel.back budget now).1 with
      | error e =>
        simp only [Devices.running, Devices.world, drawn]
        exact onwards budget (by omega)
      | ok report =>
        have less := spent report drawn
        simp only [Devices.running, Devices.world, drawn]
        exact onwards (budget - report.spaceUsed) (by omega)

/-- What holds with and without wifi, whatever the radio is then, holds whether or not wifi is needed. -/
theorem ensures_wifiIf_served {α : Type} {needed : Bool} {next : Bool → Work κ DemoService α} {now : Int}
    {devices : Devices} {post : α × Devices → σ → Prop}
    (all : ∀ up radio,
      Program.Ensures registry quiet post ((next up).serve (Devices.running now) { devices with radio }) s) :
    Program.Ensures registry quiet post
      ((if needed then Work.bringUpWifi >>= next else pure true >>= next).serve (Devices.running now) devices) s := by
  split
  · simp only [Program.serve_andThen, Program.ensures_bind, Work.bringUpWifi, Work.on]
    refine Program.ensures_serve_call.mpr ?_
    cases connected : devices.radio.connected with
    | true =>
      simp only [Devices.running, Devices.world, connected]
      exact all true devices.radio
    | false =>
      simp only [Devices.running, Devices.world, connected]
      exact Program.ensures_serve_call.mpr (all _ _)
  · exact all true devices.radio

/-- One run of a loop leaves the panel, and what the slots draw. -/
theorem ensures_loopOnce_served (r : Roster DemoService) (number : Nat) (now : Int) (devices : Devices) :
    Program.Ensures registry quiet
      (fun served after => after = s ∧ served.2.panel = devices.panel ∧
        Slot.drawings served.1.2.slots = Slot.drawings r.slots ∧ served.1.2.drawList = r.drawList)
      ((r.loopOnce number).serve (Devices.running now) devices) s := by
  unfold loopOnce
  cases there : r.slots[number]? with
  | none => exact ⟨rfl, rfl, rfl, rfl⟩
  | some slot =>
    have same (loopTask : Slot DemoService → Option Handle) :
        Slot.drawings (r.modify number fun other =>
          { other with service := slot.service.loop.state, loopTask := loopTask other }).slots =
          Slot.drawings r.slots := Slot.drawings_modify there slot.service.hasDrawing_loop
    refine ensures_wifiIf_served fun up radio => ?_
    cases up with
    | false => exact ⟨rfl, rfl, rfl, rfl⟩
    | true =>
      simp only [↓reduceIte, Program.serve_andThen, Program.ensures_bind, Work.on]
      refine Program.ensures_serve_call.mpr ?_
      cases ran : slot.service.loop.answer with
      | ok outcome =>
        simp only [Devices.running, Devices.world, ran]
        exact ⟨rfl, rfl, same _, rfl⟩
      | error e =>
        simp only [Devices.running, Devices.world, ran]
        exact ⟨rfl, rfl, same _, rfl⟩

end Roster
end Service

namespace Body

/-- Drawing a screen outside the scheduler sets the panel to it and shows it. -/
theorem drawScreen_shows (b : Body) (screen : Screen) (now : Int)
    (few : Service.Slot.drawers b.roster.slots b.roster.drawList ≤ 2) :
    (b.drawScreen screen now).state.devices.panel.screen = screen ∧
      (b.drawScreen screen now).state.devices.panel.front.Bears screen ∧
      Service.Slot.drawers (b.drawScreen screen now).state.roster.slots
        (b.drawScreen screen now).state.roster.drawList ≤ 2 := by
  let panel := (b.devices.panel.switchTo screen).beginDrawing
  have clean : panel.back.Bears screen := fun _ _ => rfl
  have drawn : Program.Ensures Registry.absent (Interface.anyone .silent) _ _ () :=
    Service.Roster.ensures_drawOnce_served b.roster.drawList Panel.height b.roster now { b.devices with panel } clean
      (Service.Slot.room_of_drawers_le few)
  obtain ⟨-, painted, list⟩ := Program.ensures_served (p := b.roster.drawExtra)
    (Program.ensures_serve_call.mpr drawn)
  have kept := (congrArg (Service.Slot.drawers _) list).trans (Service.Slot.drawers_congr painted.drawings)
  exact ⟨painted.screen, painted.bears, Nat.le_trans (Nat.le_of_eq kept) few⟩

/-- The hook before sleep never leaves the panel blank, whatever is started and drawn. -/
theorem drawSleepScreen_ok (b : Body) (idle : IdleTime) (now : Int) :
    (b.drawSleepScreen idle now).answer = .ok () := by
  have shows : (b.drawScreen .sleeping now).state.devices.panel.front.rows ≠ [] :=
    Program.run_kept Registry.absent (Devices.running now)
      (motive := fun _ (devices : Devices) => devices.panel.back.rows ≠ []) (fun _ _ _ shows => shows)
      (fun c _ devices shows => by
        cases c with
        | draw service budget => exact service.draw_rows_ne_nil budget now shows
        | beginDrawing => exact Panel.base_rows_ne_nil devices.panel.screen
        | _ => exact shows)
      b.roster.drawExtra (Panel.base_rows_ne_nil .sleeping)
  have full : (b.drawScreen .sleeping now).state.devices.panel.front.rows.isEmpty = false := by
    rwa [List.isEmpty_eq_false_iff]
  simp only [drawSleepScreen, full, Bool.false_eq_true, ↓reduceIte]

end Body

end ConferenceBadge
