import ConferenceBadge.Proofs.Badge.Drawers
import ConferenceBadge.Proofs.Badge.Reached
import ConferenceBadge.Proofs.Service.DrawPaths

/-!
Where the services write. A service that draws writes at the bottom of the rows that are left and uses up just
that row, so the rows of a drawing stand one right above the other from the bottom of the panel (`Stacked`). Of
apps with distinct names at most two draw, so every frame that the badge completes is its screen with at most two
rows at the bottom (`Panel.Frames`).
-/
namespace ConferenceBadge

/-- Rows from the bottom up, each right above the one before; `bottom` is the pixel row below the first. -/
inductive Stacked : (bottom : Nat) → List Nat → Prop
  | done (bottom : Nat) : Stacked bottom []
  | above {y : Nat} {rows : List Nat} (rest : Stacked y rows) : Stacked (y + TextPage.rowHeight) (y :: rows)

namespace Stacked

variable {bottom : Nat} {rows : List Nat}

theorem inside (stacked : Stacked bottom rows) : ∀ y ∈ rows, y + TextPage.rowHeight ≤ bottom := by
  induction stacked with
  | done bottom => exact fun y none => absurd none List.not_mem_nil
  | above rest ih =>
    refine List.forall_mem_cons.mpr ⟨Nat.le_refl _, fun y member => ?_⟩
    exact Nat.le_trans (ih y member) (Nat.le_add_right _ _)

theorem apart (stacked : Stacked bottom rows) :
    rows.Pairwise fun lower upper => upper + TextPage.rowHeight ≤ lower := by
  induction stacked with
  | done bottom => exact .nil
  | above rest ih => exact .cons rest.inside ih

/-- Two rows from the bottom of the panel have their places. -/
theorem places (stacked : Stacked Panel.height rows) (few : rows.length ≤ 2) : rows <+: [112, 96] := by
  generalize whole : Panel.height = bottom at stacked
  cases stacked with
  | done bottom => exact List.nil_prefix
  | @above y rows rest =>
    obtain rfl : y = 112 := Nat.add_right_cancel whole.symm
    refine List.cons_prefix_cons.mpr ⟨rfl, ?_⟩
    generalize above : (112 : Nat) = bottom at rest
    cases rest with
    | done bottom => exact List.nil_prefix
    | @above z rows rest =>
      obtain rfl : z = 96 := Nat.add_right_cancel above.symm
      cases rows with
      | nil => exact List.prefix_refl _
      | cons third more => simp at few

end Stacked

namespace DemoService

/-- What a service that draws writes. -/
def caption (now : Int) : DemoService → String
  | clock => clockText (Radio.wallClock now)
  | weather fetches => if fetches = 0 then "forecast pending" else "12C, light rain"
  | counter .. | flaky _ => ""

/-- What a service writes where so many rows are left. -/
def written? (service : DemoService) (budget : Nat) (now : Int) : Option (Nat × String) :=
  if service.hasDrawing = true ∧ TextPage.rowHeight ≤ budget then
    some (budget - TextPage.rowHeight, service.caption now)
  else none

/-- A service that is drawn writes a row and takes it, or does neither. -/
theorem draw_eq (service : DemoService) (d : Devices) (budget : Nat) (now : Int) :
    (service.draw d.panel.back budget now).2 =
        (service.written? budget now).elim d.panel.back (fun row => d.panel.back.write row.1 row.2) ∧
      Service.Called.spaceUsed ((Devices.running now).called (.draw service budget) d) =
        (service.written? budget now).elim 0 fun _ => TextPage.rowHeight := by
  simp only [Handler.called, Devices.running, Devices.world, Service.Called.spaceUsed, Service.Called.report?, draw,
    written?]
  by_cases few : budget < TextPage.rowHeight
  · simp only [few, ↓reduceIte, Nat.not_le.mpr few, and_false]
    exact ⟨rfl, rfl⟩
  · simp only [few, ↓reduceIte, Nat.not_lt.mp few, and_true]
    cases service <;> exact ⟨rfl, rfl⟩

/-- A row that is written is at the bottom of those that are left. -/
theorem written?_eq_some {service : DemoService} {budget : Nat} {now : Int} {row : Nat × String}
    (written : service.written? budget now = some row) :
    service.hasDrawing = true ∧ budget = row.1 + TextPage.rowHeight := by
  unfold written? at written
  split at written
  · next draws =>
    obtain rfl := Option.some.inj written
    exact ⟨draws.1, (Nat.sub_add_cancel draws.2).symm⟩
  · contradiction

end DemoService

namespace TextPage

/-- The page with these rows written one after the other. -/
def writeAll (page : TextPage) (rows : List (Nat × String)) : TextPage :=
  rows.foldl (fun page row => page.write row.1 row.2) page

end TextPage

namespace Service

variable {κ ψ : Type}

namespace Called

/-- What is written by a call. -/
def written? (now : Int) : Called DemoService Devices → Option (Nat × String)
  | ⟨.draw service budget, _, _⟩ => service.written? budget now
  | _ => none

/-- A call never takes more rows than are left, and a row that it writes is one of those. -/
def WithinBudget (now : Int) (c : Called DemoService Devices) : Prop :=
  ∀ service budget, c.call = .draw service budget →
    c.spaceUsed ≤ budget ∧ ∀ row, c.written? now = some row → row.1 + TextPage.rowHeight = budget

end Called

/-- What some calls of a drawing write: rows on top of each other, so many at most, and nothing else happens to
the panel. -/
structure Writes (now : Int) (bottom most : Nat) (d : Devices) (calls : List (Called DemoService Devices))
    (after : Devices) : Prop where
  stacked : Stacked bottom ((calls.filterMap (Called.written? now)).map Prod.fst)
  within : ∀ c ∈ calls, Called.WithinBudget now c
  few : (calls.filterMap (Called.written? now)).length ≤ most
  left : after = { d with
    panel := { d.panel with back := d.panel.back.writeAll (calls.filterMap (Called.written? now)) } }

namespace Writes

variable {now : Int} {bottom most : Nat} {d after : Devices} {calls : List (Called DemoService Devices)}

theorem none (now : Int) (bottom : Nat) (d : Devices) : Writes now bottom 0 d [] d :=
  ⟨.done bottom, fun _ none => absurd none List.not_mem_nil, Nat.zero_le _, rfl⟩

theorem atMost (writes : Writes now bottom most d calls after) {more : Nat} (fewer : most ≤ more) :
    Writes now bottom more d calls after := ⟨writes.stacked, writes.within, Nat.le_trans writes.few fewer, writes.left⟩

/-- One more service is drawn first. -/
theorem drawn {service : DemoService} {budget : Nat}
    (later : Writes now (budget - Called.spaceUsed ((Devices.running now).called (.draw service budget) d)) most
      (Devices.running now (.draw service budget) d).state calls after) :
    Writes now budget (service.hasDrawing.toNat + most) d ((Devices.running now).called (.draw service budget) d :: calls)
      after := by
  obtain ⟨page, spent⟩ := service.draw_eq d budget now
  obtain ⟨stacked, within, few, left⟩ := later
  have own : Called.written? now ((Devices.running now).called (.draw service budget) d) =
      service.written? budget now := rfl
  cases written : service.written? budget now with
  | none =>
    rw [written] at page spent own
    rw [spent] at stacked
    have same : (calls.filterMap (Called.written? now)) = _ := (List.filterMap_cons_none own).symm
    refine ⟨same ▸ stacked, List.forall_mem_cons.mpr ⟨?_, within⟩, ?_, ?_⟩
    · rintro _ _ ⟨rfl, rfl⟩
      rw [spent, own]
      exact ⟨Nat.zero_le _, nofun⟩
    · exact same ▸ Nat.le_trans few (Nat.le_add_left _ _)
    · rw [left, ← same]
      simp only [Devices.running, Devices.world, page, Option.elim_none]
  | some row =>
    rw [written] at page spent own
    obtain ⟨draws, rfl⟩ := DemoService.written?_eq_some written
    rw [spent, Option.elim_some, Nat.add_sub_cancel] at stacked
    have same : row :: calls.filterMap (Called.written? now) = _ := (List.filterMap_cons_some own).symm
    refine ⟨same ▸ .above stacked, List.forall_mem_cons.mpr ⟨?_, within⟩, ?_, ?_⟩
    · rintro _ _ ⟨rfl, rfl⟩
      rw [spent, own]
      refine ⟨Nat.le_add_left _ _, fun other same => ?_⟩
      rw [Option.some.inj same]
    · rw [← same, draws, List.length_cons, Nat.add_comm]
      exact Nat.add_le_add_left few 1
    · rw [left, ← same]
      simp only [Devices.running, Devices.world, page, Option.elim_some]
      rfl

end Writes

/-- What a drawing from begin to end writes: rows on top of each other, so many at most, on the screen that the panel
is set to. -/
structure Completes (now : Int) (most : Nat) (d : Devices) (calls : List (Called DemoService Devices))
    (after : Devices) : Prop where
  stacked : Stacked Panel.height ((calls.filterMap (Called.written? now)).map Prod.fst)
  within : ∀ c ∈ calls, Called.WithinBudget now c
  few : (calls.filterMap (Called.written? now)).length ≤ most
  left :
    let page := (Panel.base d.panel.screen).writeAll (calls.filterMap (Called.written? now))
    after = { d with panel := { d.panel with back := page, front := page } }

theorem Writes.completes {now : Int} {most : Nat} {d after : Devices} {calls : List (Called DemoService Devices)}
    (writes : Writes now Panel.height most { d with panel := d.panel.beginDrawing } calls after) :
    let running := Devices.running now
    let opening := [running.called .beginDrawing d, running.called .height { d with panel := d.panel.beginDrawing }]
    Completes now most d (opening ++ calls ++ [running.called .endDrawing after]) (running .endDrawing after).state := by
  obtain ⟨stacked, within, few, rfl⟩ := writes
  intro running opening
  have same (last : Devices) : (opening ++ calls ++ [running.called .endDrawing last]).filterMap (Called.written? now) =
      calls.filterMap (Called.written? now) := by
    simp only [List.filterMap_append]
    exact List.append_nil _
  refine ⟨(same _).symm ▸ stacked, ?_, (same _).symm ▸ few, ?_⟩
  · refine List.forall_mem_append.mpr ⟨List.forall_mem_append.mpr ⟨?_, within⟩, ?_⟩
    · exact List.forall_mem_cons.mpr ⟨nofun, List.forall_mem_singleton.mpr nofun⟩
    · exact List.forall_mem_singleton.mpr nofun
  · rw [same]
    rfl

theorem Slot.drawers_singleton {slots : List (Slot DemoService)} {number : Nat} {slot : Slot DemoService}
    (there : slots[number]? = some slot) : drawers slots [number] = slot.service.hasDrawing.toNat := by
  have kind : (drawings slots)[number]? = some slot.service.hasDrawing := by simp [drawings, there]
  rw [drawers, List.countP_singleton, kind]
  cases slot.service.hasDrawing <;> rfl

namespace Roster

variable {registry : Registry κ ψ} {s : ψ}

/-- Services that are drawn one after the other write at most a row each. -/
theorem ends_drawOnce (numbers : List Nat) (budget : Nat) (r : Roster DemoService) (now : Int) (d : Devices) :
    Program.Ends registry (Devices.running now)
      (fun calls _ _ after => Writes now budget (Slot.drawers r.slots numbers) d calls after)
      (drawOnce numbers budget r) s d := by
  induction numbers generalizing budget r d with
  | nil => exact .none now budget d
  | cons number rest ih =>
    rw [Slot.drawers_cons]
    cases there : r.slots[number]? with
    | none =>
      rw [drawOnce, there]
      exact (ih budget r d).mono fun calls last s' after writes => writes.atMost (Nat.le_add_left _ _)
    | some slot =>
      rw [drawOnce_cons there rest budget d, Program.ends_call, Program.ends_noting, Slot.drawers_singleton there]
      have same : Slot.drawings (r.slots.modify number fun other => { other with service := slot.service }) =
          Slot.drawings r.slots := Slot.drawings_modify there rfl
      refine (ih _ _ _).mono fun calls last s' after writes => Writes.drawn ?_
      rw [← Slot.drawers_congr same]
      exact writes

theorem completes_drawnAside (registry : Registry κ ψ) (r : Roster DemoService) (now : Int) (s : ψ) (d : Devices) :
    Completes now (Slot.drawers r.slots r.drawList) d (r.drawnAside.calls registry (Devices.running now) s d)
      (r.drawnAside.run registry (Devices.running now) s d).state.2 := by
  have ends : Program.Ends registry (Devices.running now)
      (fun calls _ _ after => Completes now (Slot.drawers r.slots r.drawList) d calls after) r.drawnAside s d := by
    simp only [drawnAside, drawExtra, Work.on, Program.ends_bind, Program.ends_call, Program.ends_done]
    refine (ends_drawOnce r.drawList Panel.height r now { d with panel := d.panel.beginDrawing }).mono ?_
    rintro calls last s' after writes
    exact writes.completes
  exact ends

/-- The drawing task writes what an extra drawing writes. -/
theorem completes_drawScheduled (registry : Registry κ ψ) (r : Roster DemoService) (now : Int) (s : ψ) (d : Devices) :
    Completes now (Slot.drawers r.slots r.drawList) d (r.drawScheduled.calls registry (Devices.running now) s d)
      (r.drawScheduled.run registry (Devices.running now) s d).state.2 := by
  obtain ⟨calls, ⟨last, aside, scheduled⟩, -⟩ :=
    together_drawnAside registry registry (Devices.running now) r s s d
  have completes := completes_drawnAside registry r now s d
  rw [calls, aside] at completes
  rw [scheduled]
  exact completes

end Roster
end Service

namespace Panel

/-- A complete frame of a screen: its own rows as they are, and below them service rows at two places at most. -/
def Frames (screen : Screen) (page : TextPage) : Prop :=
  ∃ services, page.rows = (base screen).rows ++ services ∧ services.map Prod.fst <:+ [96, 112]

/-- The panel shows a complete frame of its screen, if it shows anything yet. -/
def Framed (p : Panel) : Prop := p.front = .blank ∨ Frames p.screen p.front

theorem frames_writeAll (screen : Screen) {written : List (Nat × String)} (places : written.map Prod.fst <+: [112, 96]) :
    Frames screen ((base screen).writeAll written) := by
  let cut (text : String) : String := String.ofList (text.toList.take TextPage.rowLength)
  match written, places with
  | [], _ => exact ⟨[], (List.append_nil _).symm, List.nil_suffix⟩
  | [(y, text)], places =>
    obtain ⟨rfl, -⟩ := List.cons_prefix_cons.mp places
    refine ⟨[(112, cut text)], ?_, List.suffix_cons 96 [112]⟩
    cases screen <;> rfl
  | [(y, text), (z, next)], places =>
    obtain ⟨rfl, rest⟩ := List.cons_prefix_cons.mp places
    obtain ⟨rfl, -⟩ := List.cons_prefix_cons.mp rest
    refine ⟨[(96, cut next), (112, cut text)], ?_, List.suffix_refl _⟩
    cases screen <;> rfl
  | _ :: _ :: _ :: _, places => exact absurd places.length_le (by simp)

end Panel

/-- Few services draw, and the panel shows complete frames. -/
structure Body.Framed (b : Body) : Prop where
  drawers : Service.Slot.drawers b.roster.slots b.roster.drawList ≤ 2
  panel : b.devices.panel.Framed

/-- What a drawing from begin to end completes is a frame of the screen, where few services draw. -/
theorem Service.Completes.framed {now : Int} {most : Nat} {d after : Devices}
    {calls : List (Service.Called DemoService Devices)} (completes : Service.Completes now most d calls after)
    (few : most ≤ 2) : after.panel.screen = d.panel.screen ∧ after.panel.Framed := by
  obtain ⟨stacked, -, fewer, rfl⟩ := completes
  have length := Nat.le_trans fewer few
  rw [← List.length_map (f := Prod.fst)] at length
  exact ⟨rfl, .inr (Panel.frames_writeAll _ (stacked.places length))⟩

namespace Body

variable {b : Body}

theorem framed_drawScreen (few : Service.Slot.drawers b.roster.slots b.roster.drawList ≤ 2) (screen : Screen)
    (now : Int) : (b.drawScreen screen now).state.Framed := by
  refine ⟨(b.drawScreen_shows screen now few).2.2, ?_⟩
  rw [b.drawScreen_eq screen now]
  exact ((Service.Roster.completes_drawnAside Registry.absent b.roster now () _).framed few).2

theorem framed_platform (now : Int) (c : Power.Call SleepHook) (b : Body) (framed : b.Framed) :
    (platform now c b).state.Framed := by
  cases c with
  | sleep request => exact ⟨framed.drawers, framed.panel⟩
  | preSleep hook idle =>
    obtain ⟨⟩ := hook
    simp only [platform, drawSleepScreen]
    split <;> exact framed_drawScreen framed.drawers .sleeping now

end Body

namespace SharedState

/-- Every task leaves complete frames. -/
theorem framed_code (now : Int) (key : Key) (s : SharedState) (p : Pass Key) (framed : s.body.Framed) :
    ((code now key s).run Pass.registry p).answer.2.body.Framed := by
  cases key with
  | power =>
    have kept : Program.Ensures Pass.registry (Interface.anyone .silent) (fun ran _ => ran.2.body.Framed)
        (code now .power s) p := by
      simp only [code, Program.ensures_bind]
      exact Program.ensures_serve_kept (Body.framed_platform now) _ framed
    exact Script.ensures_run kept
  | service task =>
    cases task with
    | loop slot =>
      have kept : Program.Ensures Pass.registry (Interface.anyone .silent) (fun ran _ => ran.2.body.Framed)
          (code now (.service (.loop slot)) s) p := by
        simp only [code, Program.ensures_bind]
        refine (Service.Roster.ensures_loopOnce_served s.body.roster slot now s.body.devices).mono ?_
        rintro ⟨⟨result, roster⟩, devices⟩ _ ⟨rfl, panel, drawings, list⟩
        refine ⟨?_, ?_⟩
        · show Service.Slot.drawers roster.slots roster.drawList ≤ 2
          rw [Service.Slot.drawers_congr drawings, list]
          exact framed.drawers
        · show devices.panel.Framed
          rw [show devices.panel = s.body.devices.panel from panel]
          exact framed.panel
      exact Script.ensures_run kept
    | draw =>
      have draws : Program.Ensures Pass.registry (Interface.anyone .silent) _
          (s.body.roster.drawScheduled.serve (Devices.running now) s.body.devices) p :=
        Service.Roster.ensures_drawScheduled_served s.body.roster now s.body.devices framed.drawers
      have drawn := Program.ensures_served draws
      have completes := Service.Roster.completes_drawScheduled Pass.registry s.body.roster now p s.body.devices
      have ran : ((code now (.service .draw) s).run Pass.registry p).answer.2.body =
          { s.body with
            roster := (s.body.roster.drawScheduled.run Pass.registry (Devices.running now) p s.body.devices).answer.2
            devices := (s.body.roster.drawScheduled.run Pass.registry (Devices.running now) p s.body.devices).state.2 } := by
        have served := Script.run_serve Pass.registry (Devices.running now) s.body.roster.drawScheduled p s.body.devices
        refine (congrArg (fun answer : Except Fault Outcome × SharedState => answer.2.body) (Script.answer_map Pass.registry
          (s.body.roster.drawScheduled.serve (Devices.running now) s.body.devices) _ p)).trans ?_
        rw [served]
        rfl
      rw [ran]
      exact ⟨Nat.le_trans drawn.2.drawers framed.drawers, (completes.framed framed.drawers).2⟩

end SharedState
namespace Emulator

/-- What can be done with a badge once it has booted. -/
inductive Step where
  | tick (now : Int)
  | press
  | tune (radio : Radio)
  | draw (now : Int)
  | takeSleep

def step (e : Emulator) : Step → Emulator
  | .tick now => (e.tick now).state
  | .press => e.press.state
  | .tune radio => e.withRadio radio
  | .draw now => (e.drawHome now).state
  | .takeSleep => e.takeSleep.state

/-- The badge once some steps have been taken. -/
def after (e : Emulator) (steps : List Step) : Emulator := steps.foldl step e

theorem framed_boot {store : AppStore} (distinct : AppStore.Distinct store.names) (now : Int) (radio : Radio)
    (power : Power.Config) (period : Duration) : (boot store now radio power period).state.shared.body.Framed := by
  refine ⟨drawers_boot distinct now radio power period, ?_⟩
  have begun (p : Panel) (home : p.screen = .home) : Panel.Frames .home (Panel.base p.screen) := by
    rw [home]
    exact ⟨[], (List.append_nil _).symm, List.nil_suffix⟩
  -- Starting services draws none of them, so no page gets more than the rows of the screen.
  obtain ⟨home, shown, -⟩ := Program.Keeps.run_kept (Service.Roster.keeps_startInstalled
      (Service.Roster.Marked.empty Service.Roster.defaultCapacity .standard) Key.service true)
    Scheduler.registry (Devices.world now store)
    (motive := fun d : Devices => d.panel.screen = .home ∧ (d.panel.front = .blank ∨ Panel.Frames .home d.panel.front) ∧
      (d.panel.back = .blank ∨ Panel.Frames .home d.panel.back))
    (fun c d starting before => by
      cases c with
      | draw service budget => exact absurd starting.1 nofun
      | beginDrawing => exact ⟨before.1, before.2.1, .inr (begun d.panel before.1)⟩
      | endDrawing => exact ⟨before.1, before.2.2, before.2.2⟩
      | _ => exact before)
    (startTicks period).state (w := ⟨.blank, radio⟩) ⟨rfl, .inl rfl, .inl rfl⟩
  simp only [boot, postpone, Panel.Framed]
  split
  · rw [home]
    exact shown
  · exact .inr (home ▸ begun _ home)

theorem framed_tick {e : Emulator} (framed : e.shared.body.Framed) (now : Int) :
    (e.tick now).state.shared.body.Framed :=
  Scheduler.shared_tick (motive := fun s : SharedState => s.body.Framed)
    (fun key s p => SharedState.framed_code now key s p) e.scheduler framed

theorem framed_step {e : Emulator} (framed : e.shared.body.Framed) (a : Step) : (e.step a).shared.body.Framed := by
  cases a with
  | tick now => exact framed_tick framed now
  | press => exact framed
  | tune radio => exact ⟨framed.drawers, framed.panel⟩
  | draw now => exact Body.framed_drawScreen framed.drawers .home now
  | takeSleep =>
    simp only [step, takeSleep]
    split
    · exact framed
    · exact ⟨framed.drawers, framed.panel⟩

theorem framed_after {e : Emulator} (framed : e.shared.body.Framed) (steps : List Step) :
    (e.after steps).shared.body.Framed := by
  induction steps generalizing e with
  | nil => exact framed
  | cons a rest ih => exact ih (framed_step framed a)

end Emulator

/-- Rows that keep clear of each other and of the edges of the panel, in the order in which they are written. -/
structure Panel.Clear (rows : List Nat) : Prop where
  apart : rows.Pairwise fun lower upper => upper + TextPage.rowHeight ≤ lower
  inside : ∀ y ∈ rows, y + TextPage.rowHeight ≤ height

open Service in
/-- A drawing, scheduled or not, of services of any number and in any state writes rows that keep clear of each
other; no service takes more than is left, and a row that is written is the last of those that are left; and the
panel shows these rows written over the screen. So where the apps have distinct names, whatever is done with the
badge, the panel shows complete frames of its screen: the rows of the screen as they are, and service rows at 112
and 96 only. That holds between the tasks of a tick too. -/
theorem service_rows_keep_clear :
    (∀ {κ ψ : Type} (registry : Registry κ ψ) (r : Roster DemoService) (now : Int) (s : ψ) (d : Devices),
      let scheduled := r.drawScheduled.run registry (Devices.running now) s d
      let aside := r.drawnAside.run registry (Devices.running now) s d
      let calls : List (Called DemoService Devices) := r.drawScheduled.calls registry (Devices.running now) s d
      let written := calls.filterMap (Called.written? now)
      Panel.Clear (written.map Prod.fst) ∧ (∀ c ∈ calls, Called.WithinBudget now c) ∧
        scheduled.state.2.panel.front = (Panel.base d.panel.screen).writeAll written ∧
        r.drawnAside.calls registry (Devices.running now) s d = calls ∧ aside.state = scheduled.state) ∧
    ∀ {store : AppStore}, AppStore.Distinct store.names → ∀ now radio power period steps,
      let e := (Emulator.boot store now radio power period).state.after steps
      e.panel.Framed ∧ ∀ now, ∀ run ∈ e.scheduler.dispatched (SharedState.code now) e.shared,
        run.2.body.devices.panel.Framed := by
  refine ⟨fun registry r now s d => ?_, fun distinct now radio power period steps => ?_⟩
  · obtain ⟨stacked, within, -, left⟩ := Roster.completes_drawScheduled registry r now s d
    obtain ⟨calls, ⟨last, aside, scheduled⟩, -⟩ :=
      Roster.together_drawnAside registry registry (Devices.running now) r s s d
    exact ⟨⟨stacked.apart, stacked.inside⟩, within, by rw [left], calls, aside.trans scheduled.symm⟩
  · have framed := Emulator.framed_after (Emulator.framed_boot distinct now radio power period) steps
    refine ⟨framed.panel, fun now run among => ?_⟩
    have found := Scheduler.dispatched_kept (motive := fun s : SharedState => s.body.Framed)
      (fun key s p => SharedState.framed_code now key s p) _ framed run among
    exact found.panel

/-- Two apps that draw. -/
def AppStore.clockAndWeather : AppStore :=
  let manifest := FileTree.file
    ("\x7b\"apiVersion\": 2, \"wifi\": \x7b\"setup\": false\x7d, \"rtc\": false, \"loop\": true, \"draw\": true\x7d").toUTF8
  let place (app : String) : Place := ["lib", app, "service.json"].map String.toUTF8
  .ofRoot (.ofText ".") ⟨(FileTree.emptyFolder.put (place "clock") manifest).put (place "weather") manifest, []⟩

/-- The rows of the sleep screen and of both services, after the badge has gone to sleep. -/
theorem service_rows_keep_clear_asleep :
    let booted := (Emulator.boot .clockAndWeather 0 (.off false) ⟨.ofMillis 10, .zero⟩ (.ofMillis 10)).state
    let e := booted.after [.tick 0, .tick 0]
    AppStore.Distinct AppStore.clockAndWeather.names ∧ e.panel.Framed ∧ e.panel.screen = .sleeping ∧
      e.panel.front.rows.map Prod.fst = [0, 16, 96, 112] := by
  have distinct : AppStore.Distinct AppStore.clockAndWeather.names := by
    unfold AppStore.Distinct
    decide +kernel
  exact ⟨distinct, (service_rows_keep_clear.2 distinct 0 (.off false) _ _ _).1, by decide +kernel⟩

end ConferenceBadge
