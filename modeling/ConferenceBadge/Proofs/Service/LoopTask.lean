import ConferenceBadge.Proofs.Scheduler.Registration
import ConferenceBadge.Proofs.Scheduler.Single
import ConferenceBadge.Proofs.Session.InRange

/-!
The handle that a slot keeps of its loop, against the task of that handle. The roster reads off the result of a run
whether the loop goes on, and the scheduler settles the task by the same result (`Roster.loopTask_tracks_task`). They
part in one case only: a run that is put off for want of wifi keeps its handle, while a retry delay of zero removes
the task (`Roster.loopTask_left_behind`).
-/
namespace ConferenceBadge

/-- Where the pass has come to a task, the task runs on it and is settled as its run ends. -/
theorem Sweep.dispatch_head {κ ρ : Type} [ToString κ] {sweep : Sweep κ ρ} {t : Task κ} {rest : List (Task κ)}
    (head : sweep.pass.waiting = t :: rest) (code : TaskCode κ ρ) (uptime : Duration) :
    let ran := (code t.key sweep.shared).run Pass.registry sweep.pass
    let after := (sweep.dispatch code uptime t rest).state
    after.pass = ran.state.passed ⟨t, some (.ofRun ran.answer.1)⟩ rest ∧ after.shared = ran.answer.2 := by
  have same : { sweep.pass with waiting := t :: rest } = sweep.pass := by rw [← head]
  simp only [dispatch, same, and_self]

/-- A task that ran is there after the tick if it was to stay and nobody asked for its removal. -/
theorem Pass.Single.contains_settled {κ τ : Type} [ToString κ] {p : Pass κ} {t : Task κ} {settlement : Settlement}
    (single : p.Single ⟨t, some settlement⟩) (kept : t.handle ∉ p.changes.filterMap Change.deleted?)
    (s : Scheduler κ τ) : (s.commit p).state.contains t.handle = settlement.stays := by
  rw [Bool.eq_iff_iff, Scheduler.contains_iff, Task.mem_handles_iff]
  cases settlement with
  | again target => simp [single.named_commit_again kept, Settlement.stays]
  | removed => simp [single.named_commit, Entry.survivor?, Settlement.stays]
  | faulted => simp [single.named_commit, Entry.survivor?, Settlement.stays]

namespace Service

variable {κ σ τ ψ ω : Type}

/-- A run of a slot's loop is put off: it needs wifi, which is not there and does not come up. -/
def Slot.PutOff (handler : Handler (World σ) ω) (slot : Slot σ) (w : ω) : Prop :=
  slot.manifest.wifiAtLoop = true ∧ (handler .connected w).answer = false ∧
    (handler .connect (handler .connected w).state).answer = false

section

variable {registry : Registry κ ψ} {handler : Handler (World σ) ω} {s : ψ} {w : ω}

/-- Wifi that is asked for is missing in the end if it is neither there nor comes up. -/
theorem BringsUp.down_iff {after : ω} {calls : List (Called σ ω)} {up : Bool}
    (brings : BringsUp handler w calls up after) :
    up = false ↔ (handler .connected w).answer = false ∧
      (handler .connect (handler .connected w).state).answer = false := by
  cases brings with
  | there up => simp [up]
  | asked down left told =>
    subst left
    rw [told]
    exact ⟨fun failed => ⟨down, failed⟩, fun both => both.2⟩

/-- A loop goes on without wifi exactly where its run is to be put off. -/
theorem Slot.ends_wifiIf {α : Type} {slot : Slot σ} {next : Bool → Work κ σ α}
    {post : List (Called σ ω) → α → ψ → ω → Prop}
    (goes : ∀ calls up w', (up = false ↔ slot.PutOff handler w) →
      Program.Ends registry handler (fun more => post (calls ++ more)) (next up) s w') :
    Program.Ends registry handler post
      (if slot.manifest.wifiAtLoop then Work.bringUpWifi >>= next else pure true >>= next) s w := by
  split
  · next needed =>
    rw [Program.ends_bind]
    refine Work.ends_bringUpWifi.mono ?_
    rintro calls up s' w' ⟨rfl, brings⟩
    refine goes calls up w' (brings.down_iff.trans ?_)
    exact ⟨fun down => ⟨needed, down⟩, fun late => late.2⟩
  · next idle => exact goes [] true w ⟨fun wrong => by contradiction, fun late => absurd late.1 idle⟩

end

namespace Roster

/-- How a run of the loop in a slot ends: it is put off and nothing has changed, or the slot keeps its handle if the
task stays. -/
structure Ran (r : Roster σ) (number : Nat) (slot : Slot σ) (putOff : Prop) (result : Except Fault Outcome)
    (last : Roster σ) : Prop where
  later : putOff → result = .ok (.again r.config.wifiRetryDelay) ∧ last = r
  kept : ¬ putOff → ∃ service, last.slots[number]? =
    some { slot with service, loopTask := if (Settlement.ofRun result).stays then slot.loopTask else none }

/-- A run of a loop asks the registry for nothing, and ends as it is put off or as its result says. -/
theorem ends_loopOnce_ran (registry : Registry κ ψ) (handler : Handler (World σ) ω) (s : ψ) (w : ω) {r : Roster σ}
    {number : Nat} {slot : Slot σ} (there : r.slots[number]? = some slot) :
    Program.Ends registry handler (fun _ ran s' _ => s' = s ∧ Ran r number slot (slot.PutOff handler w) ran.1 ran.2)
      (r.loopOnce number) s w := by
  have changed (f : Slot σ → Slot σ) : (r.modify number f).slots[number]? = some (f slot) := by
    simp [modify, there]
  unfold loopOnce
  rw [there]
  refine Slot.ends_wifiIf fun calls up w' down => ?_
  cases up with
  | false =>
    have late : slot.PutOff handler w := down.mp rfl
    exact ⟨rfl, fun _ => ⟨rfl, rfl⟩, fun runs => absurd late runs⟩
  | true =>
    have runs : ¬ slot.PutOff handler w := fun late => by simpa using down.mpr late
    simp only [↓reduceIte, Program.ends_bind, Work.on, Program.ends_call, Program.ends_done]
    obtain ⟨result, service⟩ := (handler (.loop slot.service) w').answer
    cases result with
    | ok outcome =>
      simp only [Program.ends_pure]
      refine ⟨trivial, fun late => absurd late runs, fun _ => ⟨service, (changed _).trans ?_⟩⟩
      rw [Settlement.stays_ofRun]
      cases outcome.delay? <;> rfl
    | error e => exact ⟨rfl, fun late => absurd late runs, fun _ => ⟨service, changed _⟩⟩

variable [ToString κ]

/-- The same of the task that runs the loop, with the calls served. -/
theorem run_code_loop (handler : Handler (World σ) ω) (task? : κ → Option TaskKey) (others : TaskCode κ ω) {key : κ}
    {number : Nat} (routed : task? key = some (.loop number)) {r : Roster σ} {slot : Slot σ}
    (there : r.slots[number]? = some slot) (w : ω) (p : Pass κ) :
    let ran := (code handler task? others key (r, w)).run Pass.registry p
    ran.state = p ∧ Ran r number slot (slot.PutOff handler w) ran.answer.1 ran.answer.2.1 := by
  have ends := ends_loopOnce_ran Pass.registry handler p w there
  have served := Script.run_serve Pass.registry handler (r.loopOnce number) p w
  simp only [code, routed, work, Bind.bind, Script.run_bind, Reply.andThen]
  rw [served]
  exact ends

/-- A task runs the loop of a slot that keeps its handle, and is registered; no other task of the tick has that handle.
However the run ends, once it is settled the slot keeps the handle if the task is still registered, and none if it is
not. Only where the run is put off for want of wifi and the delay before the next attempt is zero does the slot keep
the handle of a task that is gone. Otherwise a run that is put off is tried again: the task stays and waits for that
delay, or for the last target that the tick has been asked to give it. -/
theorem loopTask_tracks_task (handler : Handler (World σ) ω) (task? : κ → Option TaskKey) (others : TaskCode κ ω)
    (uptime : Duration) (sweep : Sweep κ (Roster σ × ω)) {t : Task κ} {rest : List (Task κ)} {number : Nat}
    {slot : Slot σ} (s : Scheduler κ τ) (head : sweep.pass.waiting = t :: rest)
    (routed : task? t.key = some (.loop number)) (there : sweep.shared.1.slots[number]? = some slot)
    (owned : slot.loopTask = some t.handle) (registered : sweep.pass.contains t.handle = true)
    (alone : sweep.pass.handles.count t.handle = 1) :
    let delay := sweep.shared.1.config.wifiRetryDelay
    let putOff := slot.PutOff handler sweep.shared.2
    let after := (sweep.dispatch (code handler task? others) uptime t rest).state
    let left := (s.commit after.pass).state
    let targets := sweep.pass.changes.filterMap (Change.retargeted? t.handle)
    ∃ last, after.shared.1.slots[number]? = some last ∧ after.pass.contains t.handle = left.contains t.handle ∧
      (¬ (putOff ∧ delay = .zero) →
        last.loopTask = (if left.contains t.handle then some t.handle else none)) ∧
      (putOff ∧ delay = .zero → last.loopTask = some t.handle ∧ left.contains t.handle = false) ∧
      (putOff → after.shared.1 = sweep.shared.1 ∧ (delay ≠ .zero →
        Task.named t.handle left.tasks = [t.restarted (targets.getLast?.getD delay)])) := by
  intro delay putOff after left targets
  obtain ⟨passed, shared⟩ := Sweep.dispatch_head head (code handler task? others) uptime
  obtain ⟨untouched, later, runs⟩ := run_code_loop handler task? others routed there sweep.shared.2 sweep.pass
  generalize ((code handler task? others) t.key sweep.shared).run Pass.registry sweep.pass = ran
    at passed shared untouched later runs
  have passed : after.pass = sweep.pass.passed ⟨t, some (.ofRun ran.answer.1)⟩ rest := untouched ▸ passed
  have changes : after.pass.changes = sweep.pass.changes := by
    rw [passed]
    rfl
  have single : after.pass.Single ⟨t, some (.ofRun ran.answer.1)⟩ := passed ▸ .passed head alone _
  have kept : t.handle ∉ after.pass.changes.filterMap Change.deleted? := by
    rw [changes]
    exact (Pass.Single.of_waiting head alone).contains_iff.mp registered
  have agreed : after.pass.contains t.handle = left.contains t.handle := (single.contains_commit s).symm
  have stays : left.contains t.handle = (Settlement.ofRun ran.answer.1).stays := single.contains_settled kept s
  by_cases late : putOff
  · obtain ⟨result, unchanged⟩ := later late
    have unchanged : after.shared.1 = sweep.shared.1 := (congrArg Prod.fst shared).trans unchanged
    rw [result] at single stays
    refine ⟨slot, unchanged ▸ there, agreed, ?_, ?_, fun _ => ⟨unchanged, ?_⟩⟩
    · intro other
      have patient : delay ≠ .zero := fun none => other ⟨late, none⟩
      rw [stays, Settlement.ofRun_again patient]
      exact owned
    · rintro ⟨-, none⟩
      refine ⟨owned, stays.trans ?_⟩
      rw [Settlement.stays_ofRun, Outcome.delay?, if_pos none]
      rfl
    · intro patient
      rw [Settlement.ofRun_again patient] at single
      have waits := single.named_commit_again kept s
      rw [changes] at waits
      exact waits
  · obtain ⟨service, found⟩ := runs late
    refine ⟨_, (congrArg (·.1.slots[number]?) shared).trans found, agreed, fun _ => ?_, ?_, ?_⟩
    · rw [stays, owned]
    · exact fun both => absurd both.1 late
    · exact fun wrong => absurd wrong late

/-- The roster, the scheduler and the network with which the one service has started; wifi is tried again after a
delay. -/
def patchyStarted (delay : Duration) : Reply (Scheduler Key ManualTimer × Bool × Bool) (Bool × Roster Unit) :=
  started patchy Key.service 8 { Config.standard with wifiRetryDelay := delay } false ticking (true, false)

/-- The tasks of the services, and nothing else. -/
def patchyCode : TaskCode Key (Roster Unit × Bool × Bool) := code patchy serviceTask? fun _ w => pure (.ok .remove, w)

/-- The access point goes away, and the loop is put off: it waits ten seconds under the handle that the slot keeps. -/
theorem loopTask_tracks_task_patchy :
    let begun := patchyStarted (.ofSeconds 10)
    let s := begun.state.1
    let sweep : Sweep Key (Roster Unit × Bool × Bool) := ⟨s.firstPass, s.events, .none, begun.answer.2, (false, false)⟩
    let t : Task Key := ⟨.first, .service (.loop 0), .ofMillis 10, startDelay, .visible⟩
    let after := (sweep.dispatch patchyCode (.ofMillis 10) t []).state
    (sweep.pass.waiting = [t] ∧ sweep.pass.contains .first = true ∧ sweep.pass.handles.count .first = 1) ∧
      ∃ slot last, sweep.shared.1.slots[0]? = some slot ∧ slot.loopTask = some .first ∧
        slot.PutOff patchy sweep.shared.2 ∧ after.shared.1.slots[0]? = some last ∧ last.loopTask = some .first ∧
        Task.named .first (s.commit after.pass).state.tasks = [t.restarted (.ofSeconds 10)] := by
  intro begun s sweep t after
  have evaluated : (sweep.pass.waiting = [t] ∧ sweep.pass.contains .first = true ∧
        sweep.pass.handles.count .first = 1) ∧
      sweep.shared.1.config.wifiRetryDelay = .ofSeconds 10 ∧
      sweep.shared.1.slots.map (fun slot => (slot.manifest.wifiAtLoop, slot.loopTask)) = [(true, some .first)] := by
    decide +kernel
  obtain ⟨registered, delay, kept⟩ := evaluated
  obtain ⟨slot, rest, slots, same, none⟩ := List.map_eq_cons_iff.mp kept
  obtain ⟨needed, owned⟩ := Prod.mk.inj same
  have there : sweep.shared.1.slots[0]? = some slot := by
    rw [slots]
    rfl
  have late : slot.PutOff patchy sweep.shared.2 := ⟨needed, rfl, rfl⟩
  have patient : sweep.shared.1.config.wifiRetryDelay ≠ .zero := by
    rw [delay]
    decide
  obtain ⟨last, found, -, tracks, -, again⟩ :=
    loopTask_tracks_task patchy serviceTask? (fun _ w => pure (.ok .remove, w)) (.ofMillis 10) sweep s registered.1
      rfl there owned registered.2.1 registered.2.2
  have waits : Task.named t.handle (s.commit after.pass).state.tasks = [t.restarted (.ofSeconds 10)] := by
    rw [← delay]
    exact (again late).2 patient
  have stays : (s.commit after.pass).state.contains t.handle = true := by
    rw [Scheduler.contains_iff, Task.mem_handles_iff, waits]
    exact List.cons_ne_nil _ _
  refine ⟨registered, slot, last, there, owned, late, found, ?_, waits⟩
  exact (tracks fun both => patient both.2).trans (if_pos stays)

/-- Without a delay before the next attempt the loop that is put off loses its task, and the slot keeps the handle. -/
theorem loopTask_left_behind :
    let begun := patchyStarted .zero
    let after := begun.state.1.tick patchyCode (begun.answer.2, (false, false))
    (begun.answer.2.slots.map (·.loopTask) = [some .first] ∧ begun.state.1.contains .first = true) ∧
      ¬ (after.state.2.1.slots.map (·.loopTask) = [some .first] ↔ after.state.1.contains .first = true) := by
  decide +kernel

end Roster
end Service
end ConferenceBadge
