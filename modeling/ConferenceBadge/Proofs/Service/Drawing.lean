import ConferenceBadge.Proofs.Duration
import ConferenceBadge.Proofs.Service.Attempts
import ConferenceBadge.Proofs.Service.DrawList
import Mathlib.Algebra.Ring.Nat

/-!
One run of the drawing task, from what it calls to what it leaves. The calls of the drawing say what each service
reported; the rows that are left, the soonest interval, the marks of the slots and the list of those that go on are
all told by these reports (`Roster.Drawing.ends_through`). So the task shares out the display's rows from the bottom
up and comes back for the soonest of the services that go on (`Roster.drawScheduled_shares_rows`).
-/
namespace ConferenceBadge.Service

variable {κ σ ψ ω : Type}

namespace Called

/-- What a service reported that was drawn without failing. -/
def report? : Called σ ω → Option DrawResult
  | ⟨.draw _ _, _, (.ok report, _)⟩ => some report
  | _ => none

/-- The rows that a service took; none if it failed. -/
def spaceUsed (c : Called σ ω) : Nat := c.report?.elim 0 (·.spaceUsed)

/-- The interval after which a service is to be drawn again. -/
def interval? (c : Called σ ω) : Option Duration := c.report?.bind (·.interval?)

theorem interval?_ne_zero {c : Called σ ω} {interval : Duration} (asked : c.interval? = some interval) :
    interval ≠ .zero := by
  obtain ⟨report, -, asked⟩ := Option.bind_eq_some_iff.mp asked
  simpa using (Option.filter_eq_some_iff.mp asked).2

end Called

/-- A slot after its service was drawn: the service is as the call left it, and the slot goes on if it asked to be
drawn again. -/
def Slot.drawnBy (slot : Slot σ) : Called σ ω → Slot σ
  | c@⟨.draw _ _, _, (_, service)⟩ => { slot with service, draws := c.interval?.isSome }
  | _ => slot

namespace Roster

/-- Slots with these numbers are drawn one after the other, each into the rows that those before it left. -/
structure Shared (numbers : List Nat) (budget : Nat) (slots : List (Slot σ)) (draws : List (Called σ ω))
    (last : List (Slot σ)) : Prop where
  length : draws.length = numbers.length
  each : ∀ (k number : Nat), numbers[k]? = some number → ∃ (c : Called σ ω) (slot : Slot σ), draws[k]? = some c ∧
    slots[number]? = some slot ∧
    c.call = .draw slot.service (budget - ((draws.take k).map Called.spaceUsed).sum) ∧
    last[number]? = some (slot.drawnBy c)
  others : ∀ number ∉ numbers, last[number]? = slots[number]?

theorem Shared.nil (budget : Nat) (slots : List (Slot σ)) : Shared [] budget slots ([] : List (Called σ ω)) slots :=
  ⟨rfl, fun k number none => by simp at none, fun _ _ => rfl⟩

theorem Shared.cons {number budget : Nat} {rest : List Nat} {slots last : List (Slot σ)} {slot : Slot σ}
    {c : Called σ ω} {draws : List (Called σ ω)} (there : slots[number]? = some slot) (apart : number ∉ rest)
    (call : c.call = .draw slot.service budget)
    (later : Shared rest (budget - c.spaceUsed) (slots.modify number (·.drawnBy c)) draws last) :
    Shared (number :: rest) budget slots (c :: draws) last := by
  refine ⟨congrArg (· + 1) later.length, fun k other listed => ?_, fun other outside => ?_⟩
  · cases k with
    | zero =>
      obtain rfl := Option.some.inj listed
      refine ⟨c, slot, rfl, there, call, ?_⟩
      rw [later.others number apart]
      simp [there]
    | succ k =>
      obtain ⟨drawn, found, member, same, asked, left⟩ := later.each k other listed
      have differs : number ≠ other := fun equal => apart (equal ▸ List.mem_of_getElem? listed)
      rw [List.getElem?_modify_ne _ _ differs] at same
      refine ⟨drawn, found, member, same, ?_, left⟩
      rw [asked, List.take_succ_cons, List.map_cons, List.sum_cons, Nat.sub_sub]
  · obtain ⟨differs, outside⟩ := not_or.mp (mt List.mem_cons.mpr outside)
    rw [later.others other outside, List.getElem?_modify_ne _ _ (Ne.symm differs)]

/-- The numbers of the slots that go on after these draws. -/
def goingOn (numbers : List Nat) (draws : List (Called σ ω)) : List Nat :=
  ((numbers.zip draws).filter fun drawn => drawn.2.interval?.isSome).map (·.1)

/-- One of these intervals that none of them is shorter than; none if there are none. -/
def IsSoonest (intervals : List Duration) : Option Duration → Prop
  | none => intervals = []
  | some soonest => soonest ∈ intervals ∧ ∀ interval ∈ intervals, soonest ≤ interval

namespace Drawing

theorem isSoonest_sooner {earlier : List Duration} {soonest : Option Duration} (before : IsSoonest earlier soonest)
    (interval : Duration) : IsSoonest (earlier ++ [interval]) (sooner soonest interval) := by
  cases soonest with
  | none =>
    obtain rfl : earlier = [] := before
    refine ⟨List.mem_singleton_self _, fun other member => ?_⟩
    rw [List.mem_singleton.mp member]
    exact Nat.le_refl _
  | some soonest =>
    obtain ⟨among, least⟩ := before
    refine ⟨?_, fun other member => ?_⟩
    · show min soonest interval ∈ earlier ++ [interval]
      rcases Duration.min_eq soonest interval with first | second
      · rw [first]
        exact List.mem_append_left _ among
      · rw [second]
        exact List.mem_append_right _ (List.mem_singleton_self _)
    · rcases List.mem_append.mp member with old | new
      · exact Nat.le_trans (Duration.min_le_left soonest interval) (least other old)
      · rw [List.mem_singleton.mp new]
        exact Duration.min_le_right soonest interval

/-- The drawing after a slot was drawn by a call. -/
def reported (d : Drawing σ) (number : Nat) (c : Called σ ω) : Drawing σ where
  slots := d.slots.modify number (·.drawnBy c)
  budget := d.budget - c.spaceUsed
  soonest := c.interval?.elim d.soonest (sooner d.soonest)
  kept := c.interval?.elim d.kept fun _ => d.kept ++ [number]

/-- What is noted of a slot that was drawn. -/
def remarks (name : AppName) : Except Error DrawResult → List Log.Line
  | .ok report => report.interval?.elim [⟨.debug, .services, s!"{name.text} stopped drawing"⟩] fun _ => []
  | .error e => [⟨.warn, .services, s!"{name.text} draw: {e.message}"⟩]

/-- Drawing a slot is one call, with the rows that are left; the rest goes by its answer. -/
theorem slot_eq (d : Drawing σ) {number : Nat} {slot : Slot σ} (there : d.slots[number]? = some slot) (w : ω) :
    (d.slot number : Work κ σ (Drawing σ)) =
      .call (.draw slot.service d.budget) fun answer : Except Error DrawResult × σ =>
        .noting (remarks slot.name answer.1) (pure (d.reported number ⟨.draw slot.service d.budget, w, answer⟩)) := by
  unfold Drawing.slot
  rw [there]
  refine congrArg (Program.call _) (funext ?_)
  rintro ⟨result, service⟩
  cases result with
  | error e => rfl
  | ok report =>
    simp only [Program.bind, remarks, reported, Slot.drawnBy, Called.interval?, Called.report?, Option.bind_some]
    cases report.interval? with
    | none => rfl
    | some interval => rfl

/-- Drawing goes on from what the next slot reports. -/
theorem through_cons (d : Drawing σ) {number : Nat} {slot : Slot σ} (there : d.slots[number]? = some slot)
    (rest : List Nat) (w : ω) :
    (Drawing.through (number :: rest) d : Work κ σ (Drawing σ)) =
      .call (.draw slot.service d.budget) fun answer : Except Error DrawResult × σ =>
        .noting (remarks slot.name answer.1)
          (Drawing.through rest (d.reported number ⟨.draw slot.service d.budget, w, answer⟩)) := by
  rw [Drawing.through, slot_eq d there w]
  refine congrArg (Program.call _) (funext fun answer => ?_)
  exact Program.noting_bind _ _ _

variable {registry : Registry κ ψ} {handler : Handler (World σ) ω} {s : ψ} {w : ω}

/-- Drawing slots that are there, each once: they share the rows that are left, those that ask for an interval go on,
and the soonest interval is known. -/
theorem ends_through {numbers : List Nat} (once : numbers.Nodup) {d : Drawing σ}
    (there : ∀ number ∈ numbers, number < d.slots.length) :
    Program.Ends registry handler
      (fun draws last s' _ => s' = s ∧ Shared numbers d.budget d.slots draws last.slots ∧
        last.kept = d.kept ++ goingOn numbers draws ∧
        ∀ earlier, IsSoonest earlier d.soonest → IsSoonest (earlier ++ draws.filterMap Called.interval?) last.soonest)
      (Drawing.through numbers d) s w := by
  induction numbers generalizing d w with
  | nil =>
    rw [Drawing.through, Program.ends_pure]
    refine ⟨rfl, .nil d.budget d.slots, (List.append_nil _).symm, fun earlier before => ?_⟩
    rw [List.filterMap_nil, List.append_nil]
    exact before
  | cons number rest ih =>
    obtain ⟨apart, once⟩ := List.nodup_cons.mp once
    obtain ⟨first, later⟩ := List.forall_mem_cons.mp there
    have found : d.slots[number]? = some d.slots[number] := List.getElem?_eq_getElem first
    rw [through_cons d found rest w, Program.ends_call, Program.ends_noting]
    let c : Called σ ω := handler.called (.draw d.slots[number].service d.budget) w
    have there : ∀ other ∈ rest, other < (d.reported number c).slots.length := fun other member =>
      Nat.lt_of_lt_of_eq (later other member) (List.length_modify ..).symm
    refine (ih once there).mono ?_
    rintro draws last s' w' ⟨rfl, shared, kept, soonest⟩
    refine ⟨rfl, shared.cons found apart rfl, ?_, fun earlier before => ?_⟩
    · rw [kept]
      show c.interval?.elim d.kept (fun _ => d.kept ++ [number]) ++ _ = d.kept ++ goingOn (number :: _) (c :: draws)
      cases asked : c.interval? with
      | none => simp [goingOn, asked]
      | some interval => simp [goingOn, asked]
    · show IsSoonest (earlier ++ (c :: draws).filterMap Called.interval?) last.soonest
      cases asked : c.interval? with
      | none =>
        rw [List.filterMap_cons_none asked]
        refine soonest earlier ?_
        simpa [reported, asked] using before
      | some interval =>
        rw [List.filterMap_cons_some asked, List.append_cons]
        refine soonest (earlier ++ [interval]) ?_
        simpa [reported, asked] using isSoonest_sooner before interval

end Drawing

/-- No slot goes on if no interval was asked for. -/
theorem goingOn_eq_nil_iff {numbers : List Nat} {draws : List (Called σ ω)} (same : draws.length = numbers.length) :
    goingOn numbers draws = [] ↔ draws.filterMap Called.interval? = [] := by
  have second : (numbers.zip draws).map (·.2) = draws := List.map_snd_zip (Nat.le_of_eq same)
  rw [goingOn, List.map_eq_nil_iff, List.filter_eq_nil_iff, List.filterMap_eq_nil_iff]
  conv_rhs => rw [← second]
  simp only [List.forall_mem_map, Option.not_isSome_iff_eq_none]

section

variable (registry : Registry κ ψ) (handler : Handler (World σ) ω) (s : ψ) (w : ω)

/-- One run of the drawing task of a roster whose draw list has just the marked slots. -/
theorem ends_drawScheduled {r : Roster σ} (marked : Marked r) :
    let begun := handler.called .beginDrawing w
    let measured := handler.called .height (handler .beginDrawing w).state
    Program.Ends registry handler
      (fun calls ran s' _ => ∃ draws drawn,
        calls = begun :: measured :: draws ++ [handler.called .endDrawing drawn] ∧
        Shared r.drawList measured.answer r.slots draws ran.2.slots ∧ s' = s ∧
        ∃ soonest, IsSoonest (draws.filterMap Called.interval?) soonest ∧
          ran.1 = soonest.elim .remove (fun interval => .again (max interval r.config.shortestDrawInterval)) ∧
          ran.2 = { r with
            slots := ran.2.slots
            drawList := goingOn r.drawList draws
            drawingTask := soonest.elim none fun _ => r.drawingTask })
      r.drawScheduled s w := by
  intro begun measured
  simp only [drawScheduled, Program.ends_bind, Work.on, Program.ends_call, Program.ends_done]
  refine (Drawing.ends_through marked.increasing.nodup fun number member => marked.below member).mono ?_
  rintro draws d s' w' ⟨rfl, shared, kept, soonest⟩
  have soonest : IsSoonest (draws.filterMap Called.interval?) d.soonest := soonest [] rfl
  have kept : d.kept = goingOn r.drawList draws := kept
  cases first : d.soonest with
  | none =>
    rw [first] at soonest
    simp only [Program.ends_bind, Work.ends_log, Program.ends_call, Program.ends_done, Program.ends_pure]
    refine ⟨draws, w', rfl, shared, trivial, none, soonest, rfl, ?_⟩
    rw [← kept]
    rfl
  | some interval =>
    rw [first] at soonest
    simp only
    split
    all_goals
      simp only [Program.ends_bind, Work.ends_log, Program.ends_call, Program.ends_done, Program.ends_pure]
      refine ⟨draws, w', rfl, shared, trivial, some interval, soonest, rfl, ?_⟩
      rw [← kept]
      rfl

end

/-- One run of the drawing task, after anything that a roster has been used for, whatever the services do. Between the
begin and the end of drawing every slot on the draw list is drawn once, in order, and is given the rows of the display
that the draws before it have not taken. The list keeps the slots whose services asked for an interval. While there
are some, the task is to come back after the soonest of these intervals or after the shortest that is allowed,
whichever is longer; then it stays registered, for that is never zero, and its handle is kept. With none left it is
removed, and so is its handle. -/
theorem drawScheduled_shares_rows (capacity : Nat) (config : Config) (history : List (Occasion κ σ ψ ω))
    (registry : Registry κ ψ) (handler : Handler (World σ) ω) (s : ψ) (w : ω) :
    let r := (Roster.empty capacity config : Roster σ).after history
    let ran := r.drawScheduled.run registry handler s w
    let calls := r.drawScheduled.calls registry handler s w
    let measured := handler.called .height (handler .beginDrawing w).state
    let last := ran.answer.2
    ∃ (draws : List (Called σ ω)) (drawn : ω),
      calls = handler.called .beginDrawing w :: measured :: draws ++ [handler.called .endDrawing drawn] ∧
      Shared r.drawList measured.answer r.slots draws last.slots ∧ last.drawList = goingOn r.drawList draws ∧
      (last.config = r.config ∧ last.capacity = r.capacity ∧ ran.state.1 = s) ∧
      (last.drawList ≠ [] → ∃ soonest, (∃ c ∈ draws, c.interval? = some soonest) ∧
        (∀ c ∈ draws, ∀ interval, c.interval? = some interval → soonest ≤ interval) ∧
        let delay := max soonest r.config.shortestDrawInterval
        ran.answer.1 = .again delay ∧ last.drawingTask = r.drawingTask ∧
          ∀ t : Task κ, Entry.survivor? ⟨t, some (.ofRun (.ok ran.answer.1))⟩ = some (t.restarted delay)) ∧
      (last.drawList = [] → ran.answer.1 = .remove ∧ last.drawingTask = none ∧
        ∀ t : Task κ, Entry.survivor? ⟨t, some (.ofRun (.ok ran.answer.1))⟩ = none) := by
  intro r ran calls measured last
  obtain ⟨marked, -⟩ : Marked r ∧ _ := (Marked.empty capacity config).after history
  obtain ⟨draws, drawn, made, shared, same, soonest, isSoonest, outcome, left⟩ :=
    ends_drawScheduled registry handler s w marked
  have left : last = { r with
      slots := last.slots
      drawList := goingOn r.drawList draws
      drawingTask := soonest.elim none fun _ => r.drawingTask } := left
  have rules : last.config = r.config ∧ last.capacity = r.capacity := by
    rw [left]
    exact ⟨rfl, rfl⟩
  have list : last.drawList = goingOn r.drawList draws := congrArg Roster.drawList left
  have goesOn : last.drawList = [] ↔ draws.filterMap Called.interval? = [] := by
    rw [list]
    exact goingOn_eq_nil_iff shared.length
  refine ⟨draws, drawn, made, shared, list, ⟨rules.1, rules.2, same⟩, ?_⟩
  have task : last.drawingTask = soonest.elim none fun _ => r.drawingTask := congrArg Roster.drawingTask left
  cases soonest with
  | none =>
    have empty : last.drawList = [] := goesOn.mpr isSoonest
    refine ⟨fun some => absurd empty some, fun _ => ⟨outcome, task, fun t => ?_⟩⟩
    rw [show ran.answer.1 = .remove from outcome]
    rfl
  | some soonest =>
    obtain ⟨among, least⟩ := isSoonest
    obtain ⟨c, member, asked⟩ := List.mem_filterMap.mp among
    have later : max soonest r.config.shortestDrawInterval ≠ .zero :=
      Duration.max_ne_zero (.inl (Called.interval?_ne_zero asked))
    refine ⟨fun _ => ⟨soonest, ⟨c, member, asked⟩, ?_, outcome, task, fun t => ?_⟩, fun none => ?_⟩
    · exact fun c member interval asked => least interval (List.mem_filterMap.mpr ⟨c, member, asked⟩)
    · rw [show ran.answer.1 = .again _ from outcome, Settlement.ofRun_again later]
      rfl
    · exact absurd (goesOn.mp none) (List.ne_nil_of_mem among)

/-- The two apps are started, and started again; there is room for three. -/
def startedTwice : List (Occasion Key String (Scheduler Key Unit) Unit) :=
  [⟨.install Key.service true, Scheduler.registry, twoDrawers, .empty 3 (), ()⟩,
    ⟨.install Key.service true, Scheduler.registry, twoDrawers, .empty 3 (), ()⟩]

/-- The second service takes ten rows, so the third is given what is left of the display. Only the second goes on, and
that though drawings may follow at once. -/
theorem drawScheduled_shares_rows_twoDrawers :
    let r : Roster String := (Roster.empty 3 { Config.standard with shortestDrawInterval := .zero }).after startedTwice
    let s : Scheduler Key Unit := .empty 3 ()
    let ran := r.drawScheduled.run Scheduler.registry twoDrawers s ()
    (r.drawScheduled.calls Scheduler.registry twoDrawers s ()).map (·.call) =
        [.beginDrawing, .height, .draw "broken" 100, .draw "sound" 100, .draw "broken" 90, .endDrawing] ∧
      ran.answer.2.drawList = [1] ∧
      ∃ delay, ran.answer.1 = .again delay ∧
        ∀ t : Task Key, Entry.survivor? ⟨t, some (.ofRun (.ok ran.answer.1))⟩ = some (t.restarted delay) := by
  obtain ⟨draws, drawn, -, -, -, -, goesOn, -⟩ :=
    drawScheduled_shares_rows 3 { Config.standard with shortestDrawInterval := .zero } startedTwice Scheduler.registry
      twoDrawers (.empty 3 () : Scheduler Key Unit) ()
  obtain ⟨soonest, -, -, again, -, rearmed⟩ := goesOn (by decide +kernel)
  dsimp only
  exact ⟨by decide +kernel, by decide +kernel, _, again, rearmed⟩

end Roster
end ConferenceBadge.Service
