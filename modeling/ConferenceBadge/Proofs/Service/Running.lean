import ConferenceBadge.Proofs.Duration
import ConferenceBadge.Proofs.Guarantee
import ConferenceBadge.Scheduler.Tick
import ConferenceBadge.Service.Running

/-!
What running services does to the handles that a roster keeps: a loop that is not to run again gives
up its handle, and so does the drawing task; nothing else is touched. No service asks the registry
for anything. This holds for every store, network, service and display.
-/
namespace ConferenceBadge

/-- Whether the task stays registered. -/
def Settlement.stays : Settlement → Bool
  | again _ => true
  | removed | faulted => false

namespace Settlement

theorem ofRun_again {delay : Duration} (later : delay ≠ .zero) :
    Settlement.ofRun (.ok (.again delay)) = .again delay := by
  simp only [ofRun, Outcome.delay?, later, ↓reduceIte]

/-- Only a failure is settled as one. -/
theorem ofRun_eq_faulted {result : Except Fault Outcome} (faulted : ofRun result = .faulted) :
    ∃ fault, result = .error fault := by
  cases result with
  | ok outcome =>
    simp only [ofRun] at faulted
    split at faulted <;> contradiction
  | error fault => exact ⟨fault, rfl⟩

theorem stays_ofRun {outcome : Outcome} : (ofRun (.ok outcome)).stays = outcome.delay?.isSome := by
  cases delay : outcome.delay? <;> simp only [ofRun, delay, stays, Option.isSome]

end Settlement

namespace Service

variable {κ σ ω α : Type} {registry : Registry κ ω} {rely : (World σ).Rely} {s : ω}

namespace Work

@[simp] theorem ensures_log {post : Unit → ω → Prop} {level : Log.Level} {text : String} :
    Program.Ensures registry rely post (log level text) s ↔ post () s := Iff.rfl

theorem ensures_bringUpWifi {post : Bool → ω → Prop} (all : ∀ up, post up s) :
    Program.Ensures registry rely post bringUpWifi s := by
  simp only [bringUpWifi, on, Program.ensures_bind, Program.ensures_call, Program.ensures_done]
  intro connected kept
  split
  · exact all true
  · exact fun up kept => all up

/-- What holds with and without wifi holds whether or not wifi is needed. -/
theorem ensures_wifiIf {needed : Bool} {next : Bool → Work κ σ α} {post : α → ω → Prop}
    (all : ∀ up, Program.Ensures registry rely post (next up) s) :
    Program.Ensures registry rely post (if needed then bringUpWifi >>= next else pure true >>= next) s := by
  split
  · rw [Program.ensures_bind]
    exact ensures_bringUpWifi all
  · exact all true

end Work

namespace Slot

/-- The handles that slots keep, in order. -/
def loopTasks (slots : List (Slot σ)) : List (Option Handle) := slots.map (·.loopTask)

variable {slots : List (Slot σ)} {number : Nat} {f : Slot σ → Slot σ}

theorem loopTasks_modify {slot : Slot σ} (there : slots[number]? = some slot) :
    loopTasks (slots.modify number f) = (loopTasks slots).set number (f slot).loopTask := by
  obtain ⟨bound, equal⟩ := List.getElem?_eq_some_iff.mp there
  apply List.ext_getElem?
  intro i
  simp only [loopTasks, List.getElem?_map, List.getElem?_modify, List.getElem?_set, List.length_map]
  by_cases same : number = i
  · subst same
    simp [bound, equal]
  · simp [same]

theorem loopTasks_set_same {slot : Slot σ} (there : slots[number]? = some slot) :
    (loopTasks slots).set number slot.loopTask = loopTasks slots := by
  have found : (loopTasks slots)[number]? = some slot.loopTask := by simp [loopTasks, there]
  obtain ⟨bound, same⟩ := List.getElem?_eq_some_iff.mp found
  rw [← same, List.set_getElem_self]

/-- A change that leaves each slot its handle leaves the handles. -/
theorem loopTasks_modify_same (same : ∀ slot, (f slot).loopTask = slot.loopTask) :
    loopTasks (slots.modify number f) = loopTasks slots := by
  cases there : slots[number]? with
  | none => rw [List.modify_eq_self (List.getElem?_eq_none_iff.mp there)]
  | some slot => rw [loopTasks_modify there, same slot, loopTasks_set_same there]

end Slot

namespace Roster

/-- One run of a loop. -/
theorem ensures_loopOnce (r : Roster σ) (number : Nat) (patient : r.config.wifiRetryDelay ≠ .zero) :
    Program.Ensures registry rely
      (fun ran after => after = s ∧ ran.2.config = r.config ∧ ran.2.drawingTask = r.drawingTask ∧
        Slot.loopTasks ran.2.slots =
          (if (Settlement.ofRun ran.1).stays then Slot.loopTasks r.slots else (Slot.loopTasks r.slots).set number none) ∧
        ∀ fault, ran.1 = .error fault →
          r.slots[number]? = none ∨ ∃ service e after, rely (.loop service) (.error e, after))
      (r.loopOnce number) s := by
  unfold loopOnce
  cases there : r.slots[number]? with
  | none =>
    have absent : (Slot.loopTasks r.slots).set number none = Slot.loopTasks r.slots := by
      apply List.set_eq_of_length_le
      simpa [Slot.loopTasks] using there
    simp [Settlement.ofRun, Settlement.stays, absent]
  | some slot =>
    refine Work.ensures_wifiIf fun wifi => ?_
    cases wifi with
    | false =>
      simp only [Bool.false_eq_true, ↓reduceIte, Program.ensures_bind, Work.ensures_log, Program.ensures_pure]
      rw [Settlement.ofRun_again patient]
      exact ⟨trivial, trivial, trivial, rfl, fun fault same => by contradiction⟩
    | true =>
      simp only [↓reduceIte, Program.ensures_bind, Work.on, Program.ensures_call, Program.ensures_done]
      rintro ⟨result, service⟩ kept
      cases result with
      | ok outcome =>
        simp only [Program.ensures_pure, Settlement.stays_ofRun, modify, Slot.loopTasks_modify there]
        refine ⟨trivial, trivial, trivial, ?_, fun fault same => by contradiction⟩
        cases outcome.delay? with
        | none => rfl
        | some delay => exact Slot.loopTasks_set_same there
      | error e =>
        simp only [Program.ensures_bind, Work.ensures_log, Program.ensures_pure, modify, Slot.loopTasks_modify there]
        exact ⟨trivial, trivial, trivial, rfl, fun fault same => .inr ⟨_, _, _, kept⟩⟩

theorem Drawing.ensures_slot (d : Drawing σ) (number : Nat) :
    Program.Ensures registry rely
      (fun drawn after => after = s ∧ Slot.loopTasks drawn.slots = Slot.loopTasks d.slots) (d.slot number) s := by
  unfold Drawing.slot
  cases d.slots[number]? with
  | none => exact ⟨rfl, rfl⟩
  | some slot =>
    simp only [Program.ensures_bind, Work.on, Program.ensures_call, Program.ensures_done]
    rintro ⟨result, service⟩ kept
    have same (keeps : Bool) : Slot.loopTasks (d.slots.modify number fun s => { s with service, draws := keeps }) =
        Slot.loopTasks d.slots := Slot.loopTasks_modify_same fun _ => rfl
    cases result with
    | ok report =>
      simp only
      cases report.interval? with
      | some interval => exact ⟨rfl, same true⟩
      | none => exact ⟨rfl, same false⟩
    | error e => exact ⟨rfl, same false⟩

theorem Drawing.ensures_through (numbers : List Nat) (d : Drawing σ) :
    Program.Ensures registry rely
      (fun drawn after => after = s ∧ Slot.loopTasks drawn.slots = Slot.loopTasks d.slots)
      (Drawing.through numbers d) s := by
  induction numbers generalizing d with
  | nil => exact ⟨rfl, rfl⟩
  | cons number rest ih =>
    rw [Drawing.through, Program.ensures_bind]
    refine (ensures_slot d number).mono ?_
    rintro drawn after ⟨rfl, same⟩
    refine (ih drawn).mono ?_
    rintro last after ⟨rfl, kept⟩
    exact ⟨rfl, kept.trans same⟩

/-- One run of the drawing task. -/
theorem ensures_drawScheduled (r : Roster σ) (calm : r.config.shortestDrawInterval ≠ .zero) :
    Program.Ensures registry rely
      (fun ran after => after = s ∧ ran.2.config = r.config ∧ Slot.loopTasks ran.2.slots = Slot.loopTasks r.slots ∧
        ran.2.drawingTask = if (Settlement.ofRun (.ok ran.1)).stays then r.drawingTask else none)
      r.drawScheduled s := by
  simp only [drawScheduled, Program.ensures_bind, Work.on, Program.ensures_call, Program.ensures_done]
  intro opened _ budget _
  refine (Drawing.ensures_through r.drawList _).mono ?_
  rintro d after ⟨rfl, same⟩
  cases d.soonest with
  | none =>
    simp only [Program.ensures_bind, Work.ensures_log, Program.ensures_call, Program.ensures_done]
    intro closed _
    exact ⟨rfl, rfl, same, rfl⟩
  | some interval =>
    have later := Settlement.ofRun_again (Duration.max_ne_zero (a := interval) (.inr calm))
    have kept : r.drawingTask = if (Settlement.ofRun (.ok (.again (max interval r.config.shortestDrawInterval)))).stays
        then r.drawingTask else none := by
      rw [later]
      rfl
    simp only
    split
    · exact fun closed _ => ⟨rfl, rfl, same, kept⟩
    · exact fun closed _ => ⟨rfl, rfl, same, kept⟩

theorem ensures_drawOnce (numbers : List Nat) (budget : Nat) (r : Roster σ) :
    Program.Ensures registry rely
      (fun drawn after => after = s ∧ drawn.config = r.config ∧ drawn.drawingTask = r.drawingTask ∧
        Slot.loopTasks drawn.slots = Slot.loopTasks r.slots) (drawOnce (κ := κ) numbers budget r) s := by
  induction numbers generalizing budget r with
  | nil => exact ⟨rfl, rfl, rfl, rfl⟩
  | cons number rest ih =>
    rw [drawOnce]
    cases r.slots[number]? with
    | none => exact ih budget r
    | some slot =>
      simp only [Program.ensures_bind, Work.on, Program.ensures_call, Program.ensures_done]
      rintro ⟨result, service⟩ kept
      have same : Slot.loopTasks (r.slots.modify number fun s => { s with service }) = Slot.loopTasks r.slots :=
        Slot.loopTasks_modify_same fun _ => rfl
      cases result with
      | ok report =>
        refine (ih _ _).mono ?_
        rintro drawn after ⟨rfl, config, drawing, loops⟩
        exact ⟨rfl, config, drawing, loops.trans same⟩
      | error e =>
        refine (ih _ _).mono ?_
        rintro drawn after ⟨rfl, config, drawing, loops⟩
        exact ⟨rfl, config, drawing, loops.trans same⟩

theorem ensures_drawExtra (r : Roster σ) :
    Program.Ensures registry rely
      (fun drawn after => after = s ∧ drawn.config = r.config ∧ drawn.drawingTask = r.drawingTask ∧
        Slot.loopTasks drawn.slots = Slot.loopTasks r.slots) (drawExtra (κ := κ) r) s := by
  simp only [drawExtra, Program.ensures_bind, Work.on, Program.ensures_call, Program.ensures_done]
  exact fun budget _ => ensures_drawOnce r.drawList budget r

end Roster
end Service
end ConferenceBadge
