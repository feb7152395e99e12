import ConferenceBadge.Proofs.Badge.Reached

/-!
The tasks of a badge and their owners: the power manager, the slots of services and the drawing. Each
keeps the handle of its task while that is registered, and each step of a badge that registers a task or
lets one go does the same to the handle (`Conducts.ownersAgree`, `ownersAgree_press`).
-/
namespace ConferenceBadge

namespace Ledger

variable {l : Ledger} {idle : IdleTime} {settlement : Settlement} {key : Key}

@[simp] theorem power_after : (l.after idle settlement key).power = l.power := by
  unfold after
  split <;> split <;> rfl

@[simp] theorem length_loops_after : (l.after idle settlement key).loops.length = l.loops.length := by
  unfold after
  split
  · split <;> rfl
  · split
    · rfl
    · exact List.length_set
  · split <;> rfl

theorem owner_sleep (l : Ledger) (sleep : Option Power.SleepRequest) : owner { l with sleep } = l.owner := by
  funext key
  rcases key with _ | _ | _ <;> rfl

/-- A task that stays registered keeps its owner. -/
theorem owner_after_stays (stays : settlement.stays = true) : (l.after idle settlement key).owner = l.owner := by
  unfold after
  split
  · split
    · funext k
      rcases k with _ | _ | _ <;> rfl
    · rfl
  · rw [if_pos stays]
  · rw [if_pos stays]

/-- A task of a service that goes loses its owner, and no other task does. -/
theorem owner_after_gone (l : Ledger) (idle : IdleTime) (gone : settlement.stays = false) (other : key ≠ .power) :
    (l.after idle settlement key).owner key = none ∧
      ∀ k, k ≠ key → (l.after idle settlement key).owner k = l.owner k := by
  cases key with
  | power => contradiction
  | service task =>
    cases task with
    | loop slot =>
      simp only [after, gone, Bool.false_eq_true, ↓reduceIte]
      constructor
      · simp only [owner, List.getElem?_set_self']
        cases l.loops[slot]? <;> rfl
      · intro k different
        rcases k with _ | number | _
        · rfl
        · have apart : slot ≠ number := by
            rintro rfl
            exact different rfl
          simp only [owner, List.getElem?_set_ne apart]
        · rfl
    | draw =>
      simp only [after, gone, Bool.false_eq_true, ↓reduceIte]
      refine ⟨rfl, ?_⟩
      intro k different
      rcases k with _ | number | _
      · rfl
      · rfl
      · contradiction

end Ledger

/-- A tick keeps tasks and owners in agreement, as long as the power manager waits at all between two
runs of its task. Without a display no task fails. -/
theorem Conducts.ownersAgree {ρ τ : Type} {display : Bool} {ledger : ρ → Ledger} {code : TaskCode Key ρ}
    (conducts : Conducts display ledger code) {s : Scheduler Key τ} {shared : ρ}
    (steady : (ledger shared).Steady display) (responsive : (ledger shared).config.responseTime ≠ .zero)
    (agree : OwnersAgree s.tasks Key.visibility (ledger shared).owner) :
    OwnersAgree (s.tick code shared).state.1.tasks Key.visibility (ledger (s.tick code shared).state.2).owner ∧
      (ledger (s.tick code shared).state.2).power = (ledger shared).power ∧
      (ledger (s.tick code shared).state.2).loops.length = (ledger shared).loops.length ∧
      (display = false → (s.tick code shared).answer.faulted = 0) := by
  cases active : s.active with
  | false =>
    obtain ⟨state, answer⟩ := s.tick_stopped active code shared
    rw [state, answer]
    exact ⟨agree, rfl, rfl, fun _ => rfl⟩
  | true =>
    have aged : OwnersAgree s.aged Key.visibility (ledger shared).owner :=
      agree.of_identity (by simp [Scheduler.aged, Function.comp_def])
    obtain ⟨-, agree, rest⟩ := conducts.tick active steady
      (motive := fun kept rest l tally => l.config = (ledger shared).config ∧
        OwnersAgree (kept ++ rest) Key.visibility l.owner ∧ l.power = (ledger shared).power ∧
        l.loops.length = (ledger shared).loops.length ∧ (display = false → tally.faulted = 0))
      (by
        rintro kept t rest l tally early ⟨config, agree, frame⟩
        refine ⟨config, ?_, frame⟩
        rw [← List.append_cons]
        exact agree)
      (by
        rintro kept t rest l tally settlement due again sound ⟨config, agree, power, loops, sane⟩
        have member : t ∈ kept ++ t :: rest := List.mem_append_right kept List.mem_cons_self
        refine ⟨Ledger.config_after.trans config, ?_, Ledger.power_after.trans power,
          Ledger.length_loops_after.trans loops, ?_⟩
        · cases stays : settlement.stays with
          | true =>
            rw [Ledger.owner_after_stays stays]
            cases settlement with
            | again target => exact agree.of_identity (by simp [Entry.survivor?])
            | removed => contradiction
            | faulted => contradiction
          | false =>
            have other : t.key ≠ .power := by
              intro isPower
              rw [again isPower, config, Settlement.ofRun_again responsive] at stays
              contradiction
            obtain ⟨gone, same⟩ := l.owner_after_gone (Task.idleTime (kept ++ t :: rest)) stays other
            cases settlement with
            | again target => contradiction
            | removed =>
              rw [show (Entry.survivor? ⟨t, some .removed⟩).toList = [] from rfl, List.append_nil]
              exact agree.remove gone same
            | faulted =>
              rw [show (Entry.survivor? ⟨t, some .faulted⟩).toList = [] from rfl, List.append_nil]
              exact agree.remove gone same
        · intro none
          cases settlement with
          | again target => exact sane none
          | removed => exact sane none
          | faulted =>
            -- A task that is registered has an owner, so it cannot be one that nobody owns.
            have owned := (agree.registered t member).1
            rw [sound none rfl] at owned
            contradiction)
      ⟨rfl, aged, rfl, rfl, fun _ => rfl⟩
    rw [List.append_nil] at agree
    exact ⟨agree, rest⟩

section
variable {η τ : Type} {m : Power.Manager Key η} {s : Scheduler Key τ} {owner : Key → Option Handle}

/-- An input finds the power manager's task and keeps tasks and owners in agreement. -/
theorem ownersAgree_press (agree : OwnersAgree s.tasks Key.visibility owner) (keeps : owner .power = m.handle)
    {handle : Handle} (armed : m.handle = some handle) :
    (Script.run Scheduler.registry m.postpone s).answer = (.ok handle, m) ∧
      OwnersAgree (Script.run Scheduler.registry m.postpone s).state.tasks Key.visibility owner := by
  obtain ⟨t, member, power⟩ := agree.kept .power handle (keeps.trans armed)
  have same : t.handle = handle := by
    have known := (agree.registered t member).1
    rw [power, keeps, armed] at known
    exact (Option.some.inj known).symm
  have there : s.contains handle = true := Scheduler.contains_iff.mpr (List.mem_map.mpr ⟨t, member, same⟩)
  obtain ⟨answer, state⟩ := Power.Manager.run_postpone_armed armed there
  refine ⟨answer, ?_⟩
  rw [state, Scheduler.tasks_update]
  exact agree.of_identity (Scheduler.identity_restartFirst handle m.config.responseTime s.tasks)

/-- At boot the power manager becomes the owner of its task, beside the services that have started. -/
theorem ownersAgree_boot {σ : Type} {most : Nat} {r : Service.Roster σ} (services : r.Started most s)
    (key : m.key = .power) (idle : m.handle = none) {l : Ledger}
    (power : l.power = (Script.run Scheduler.registry m.postpone s).answer.2.handle)
    (loops : l.loops = Service.Slot.loopTasks r.slots) (drawing : l.drawing = r.drawingTask) :
    OwnersAgree (Script.run Scheduler.registry m.postpone s).state.tasks Key.visibility l.owner ∧
      (∃ handle, l.power = some handle) ∧ l.loops.length ≤ most := by
  obtain ⟨answer, state⟩ := Power.Manager.run_postpone_idle idle services.vacant
  obtain ⟨-, tasks, -⟩ := Scheduler.add_vacant services.vacant m.key m.config.responseTime .hidden
  have armed : l.power = some s.nextHandle := power.trans (congrArg (fun ran => ran.2.handle) answer)
  rw [state, tasks, key]
  refine ⟨services.agree.add rfl armed ?_ m.config.responseTime, ⟨s.nextHandle, armed⟩, ?_⟩
  · intro k other
    rcases k with _ | slot | _
    · contradiction
    · exact congrArg (fun loops => loops[slot]?.join) loops
    · exact drawing
  · have room := services.room
    rwa [loops, Service.Slot.loopTasks, List.length_map]

end

namespace Emulator

/-- What holds of tasks and owners in every state that the emulated badge can come to. -/
theorem Reached.ownersAgree {power : Power.Config} (responsive : power.responseTime ≠ .zero) {e : Emulator}
    (reached : Reached power e) :
    OwnersAgree e.scheduler.tasks Key.visibility e.ledger.owner ∧ (∃ handle, e.ledger.power = some handle) ∧
      e.ledger.loops.length ≤ Service.Roster.defaultCapacity := by
  induction reached with
  | booted store now radio period =>
    obtain ⟨started, same, manager, services, -⟩ := boot_started store now radio power period
    have key : started.manager.key = .power := by rw [manager]; rfl
    have idle : started.manager.handle = none := by rw [manager]; rfl
    rw [same]
    exact ownersAgree_boot services key idle rfl rfl rfl
  | @ticked e earlier now ih =>
    obtain ⟨agree, ⟨handle, armed⟩, slots⟩ := ih
    obtain ⟨rfl, steady⟩ := earlier.steady
    obtain ⟨agree, kept, loops, -⟩ := (SharedState.conducts now).ownersAgree (s := e.scheduler) steady responsive agree
    exact ⟨agree, ⟨handle, kept.trans armed⟩, loops ▸ slots⟩
  | @pressed e earlier ih =>
    obtain ⟨agree, ⟨handle, armed⟩, slots⟩ := ih
    obtain ⟨answer, agree⟩ := ownersAgree_press agree rfl armed
    have same : e.press.state.ledger = e.ledger :=
      congrArg (fun manager => SharedState.ledger { e.shared with manager }) (congrArg Prod.snd answer)
    rw [same]
    exact ⟨agree, ⟨handle, armed⟩, slots⟩
  | tuned earlier radio ih => exact ih
  | drawn earlier now ih =>
    rw [ledger_drawHome]
    exact ih
  | @slept e earlier ih =>
    obtain ⟨tasks, sleep, same⟩ := e.takeSleep_frame
    rw [tasks, same, Ledger.owner_sleep]
    exact ih

end Emulator

namespace Board.Badge

/-- What holds of tasks and owners in every state that the badge on its board can come to. -/
theorem Reached.ownersAgree {power : Power.Config} (responsive : power.responseTime ≠ .zero) {b : Badge}
    (reached : Reached power b) :
    OwnersAgree b.scheduler.tasks Key.visibility b.ledger.owner ∧ (∃ handle, b.ledger.power = some handle) ∧
      b.ledger.loops.length ≤ rosterCapacity := by
  induction reached with
  | booted period counters =>
    obtain ⟨started, same, manager, services, -⟩ := boot_started period counters power
    have key : started.shared.manager.key = .power := by rw [manager]; rfl
    have idle : started.shared.manager.handle = none := by rw [manager]; rfl
    rw [same]
    exact ownersAgree_boot services key idle rfl rfl rfl
  | @ticked b earlier ih =>
    obtain ⟨agree, ⟨handle, armed⟩, slots⟩ := ih
    obtain ⟨rfl, steady⟩ := earlier.steady
    obtain ⟨agree, kept, loops, -⟩ := SharedState.conducts.ownersAgree (s := b.scheduler) steady responsive agree
    exact ⟨agree, ⟨handle, kept.trans armed⟩, loops ▸ slots⟩
  | @pressed b earlier ih =>
    obtain ⟨agree, ⟨handle, armed⟩, slots⟩ := ih
    obtain ⟨answer, agree⟩ := ownersAgree_press agree rfl armed
    have same : b.press.state.ledger = b.ledger :=
      congrArg (fun manager => SharedState.ledger { b.shared with manager }) (congrArg Prod.snd answer)
    rw [same]
    exact ⟨agree, ⟨handle, armed⟩, slots⟩
  | @slept b earlier ih =>
    obtain ⟨tasks, sleep, same⟩ := b.takeSleep_frame
    rw [tasks, same, Ledger.owner_sleep]
    exact ih

end Board.Badge

/-- Tasks and owners are in step: no two tasks share a key; there is one task of the power manager,
which is hidden; a slot's loop is registered where the slot keeps a handle, is visible and has that
handle; the drawing is registered where a handle is kept for it, is hidden and has that handle. So there
are at most two tasks more than slots. -/
structure OwnersInStep (tasks : List (Task Key)) (power : Option Handle) (loops : List (Option Handle))
    (drawing : Option Handle) : Prop where
  distinct : (tasks.map (·.key)).Nodup
  power : ∃ t ∈ tasks, t.key = .power ∧ t.visibility = .hidden ∧ power = some t.handle ∧
    ∀ u ∈ tasks, u.key = .power → u = t
  loop : ∀ slot, (∃ t ∈ tasks, t.key = .service (.loop slot)) ↔ ∃ handle, loops[slot]? = some (some handle)
  loopTask : ∀ t ∈ tasks, ∀ slot, t.key = .service (.loop slot) →
    t.visibility = .visible ∧ loops[slot]? = some (some t.handle)
  draw : (∃ t ∈ tasks, t.key = .service .draw) ↔ drawing.isSome = true
  drawTask : ∀ t ∈ tasks, t.key = .service .draw → t.visibility = .hidden ∧ drawing = some t.handle
  few : tasks.length ≤ loops.length + 2

theorem OwnersAgree.inStep {tasks : List (Task Key)} {l : Ledger} (agree : OwnersAgree tasks Key.visibility l.owner)
    {handle : Handle} (armed : l.power = some handle) : OwnersInStep tasks l.power l.loops l.drawing := by
  have loop {slot : Nat} {kept : Handle} :
      l.owner (.service (.loop slot)) = some kept ↔ l.loops[slot]? = some (some kept) := by
    simp only [Ledger.owner, Option.join_eq_some_iff]
  refine ⟨agree.distinct, ?_, ?_, ?_, ?_, ?_, ?_⟩
  · obtain ⟨t, member, key⟩ := agree.kept .power handle armed
    obtain ⟨known, sight⟩ := agree.registered t member
    rw [key] at known sight
    refine ⟨t, member, key, sight, known, ?_⟩
    exact fun u there same => List.inj_on_of_nodup_map agree.distinct there member (same.trans key.symm)
  · intro slot
    constructor
    · rintro ⟨t, member, key⟩
      have known := (agree.registered t member).1
      rw [key, loop] at known
      exact ⟨t.handle, known⟩
    · rintro ⟨kept, known⟩
      exact agree.kept _ kept (loop.mpr known)
  · intro t member slot key
    obtain ⟨known, sight⟩ := agree.registered t member
    rw [key] at known sight
    exact ⟨sight, loop.mp known⟩
  · constructor
    · rintro ⟨t, member, key⟩
      have known := (agree.registered t member).1
      rw [key] at known
      exact Option.isSome_iff_exists.mpr ⟨t.handle, known⟩
    · intro kept
      obtain ⟨drawing, known⟩ := Option.isSome_iff_exists.mp kept
      exact agree.kept (.service .draw) drawing known
  · intro t member key
    obtain ⟨known, sight⟩ := agree.registered t member
    rw [key] at known sight
    exact ⟨sight, known⟩
  · have bound := agree.length_le
      (.power :: .service .draw :: (List.range l.loops.length).map fun slot => .service (.loop slot)) (by
        intro key kept known
        rcases key with _ | slot | _
        · exact List.mem_cons_self
        · obtain ⟨below, -⟩ := List.getElem?_eq_some_iff.mp (loop.mp known)
          refine List.mem_cons_of_mem _ (List.mem_cons_of_mem _ ?_)
          exact List.mem_map.mpr ⟨slot, List.mem_range.mpr below, rfl⟩
        · exact List.mem_cons_of_mem _ List.mem_cons_self)
    simpa using bound

/-- Every task that the services want is registered: the loops of their slots and, where there is
anything to draw, the drawing. -/
structure Service.Roster.Complete {σ : Type} (r : Roster σ) (display : Bool) : Prop where
  loops : ∀ slot ∈ r.slots, slot.loopTask.isSome = slot.manifest.wantsLoop
  drawing : r.drawingTask.isSome = (display && !r.drawList.isEmpty)

/-- With a response time above zero, as every response time from settings is, tasks and owners are in
step in every state that the emulated badge or the badge on its board can come to, and input re-arms the
power manager's task. Boot registers every task that the services want. On the board nothing draws and
no task fails. -/
theorem owners_in_step (power : Power.Config) (responsive : .zero < power.responseTime) :
    (∀ e, Emulator.Reached power e →
      OwnersInStep e.scheduler.tasks e.manager.handle (e.roster.slots.map (·.loopTask)) e.roster.drawingTask ∧
      e.roster.slots.length ≤ Service.Roster.defaultCapacity ∧
      ∃ handle, e.manager.handle = some handle ∧ e.press.answer = .ok handle) ∧
    (∀ store now radio period, (Emulator.boot store now radio power period).state.roster.Complete true) ∧
    (∀ b, Board.Badge.Reached power b →
      OwnersInStep b.scheduler.tasks b.shared.manager.handle (b.shared.roster.slots.map (·.loopTask))
        b.shared.roster.drawingTask ∧
      b.shared.roster.slots.length ≤ Board.rosterCapacity ∧
      (∃ handle, b.shared.manager.handle = some handle ∧ b.press.answer = .ok handle) ∧
      b.shared.roster.drawingTask = none ∧ (∀ t ∈ b.scheduler.tasks, t.key ≠ .service .draw) ∧
      b.tick.answer.faulted = 0) ∧
    (∀ period counters, (Board.Badge.boot period counters power).state.shared.roster.Complete false) ∧
    ∀ settings, .zero < (Power.Config.ofSettings settings).1.responseTime := by
  have waits : power.responseTime ≠ .zero := by
    intro none
    rw [none] at responsive
    exact Nat.lt_irrefl _ responsive
  refine ⟨?_, ?_, ?_, ?_, Power.Config.responseTime_ofSettings⟩
  · intro e reached
    obtain ⟨agree, ⟨handle, armed⟩, slots⟩ := reached.ownersAgree waits
    obtain ⟨answer, -⟩ := ownersAgree_press agree rfl armed
    refine ⟨agree.inStep armed, ?_, handle, armed, congrArg Prod.fst answer⟩
    rwa [← List.length_map (·.loopTask)]
  · intro store now radio period
    obtain ⟨started, same, -, services, drawing⟩ := Emulator.boot_started store now radio power period
    rw [same]
    exact ⟨services.loops, drawing⟩
  · intro b reached
    obtain ⟨agree, ⟨handle, armed⟩, slots⟩ := reached.ownersAgree waits
    obtain ⟨config, steady⟩ := reached.steady
    obtain ⟨answer, -⟩ := ownersAgree_press agree rfl armed
    have blank : b.ledger.drawing = none := steady.blank rfl
    have inStep := agree.inStep armed
    refine ⟨inStep, ?_, ⟨handle, armed, congrArg Prod.fst answer⟩, blank, ?_, ?_⟩
    · rwa [← List.length_map (·.loopTask)]
    · intro t member key
      have kept := (inStep.drawTask t member key).2
      rw [blank] at kept
      contradiction
    · exact (Board.SharedState.conducts.ownersAgree (s := b.scheduler) steady (config ▸ waits) agree).2.2.2 rfl
  · intro period counters
    obtain ⟨started, same, -, services, blank⟩ := Board.Badge.boot_started period counters power
    rw [same]
    exact ⟨services.loops, congrArg Option.isSome blank⟩

/-- A store with a clock, whose loop fails in the first tick, and a counter. -/
def AppStore.clockAndCounter : AppStore :=
  let manifest := FileTree.file
    ("\x7b\"apiVersion\": 2, \"wifi\": \x7b\"setup\": false\x7d, \"rtc\": false, \"loop\": true, \"draw\": true\x7d").toUTF8
  let place (app : String) : Place := ["lib", app, "service.json"].map String.toUTF8
  .ofRoot (.ofText ".") ⟨(FileTree.emptyFolder.put (place "clock") manifest).put (place "counter") manifest, []⟩

/-- The emulated badge with these two apps after its first tick. -/
def Emulator.busy : Emulator :=
  ((boot .clockAndCounter 0 (.off false) .standard (.ofMillis 10)).state.tick 0).state

theorem owners_in_step_busy :
    .zero < Power.Config.standard.responseTime ∧ Emulator.Reached .standard .busy ∧
      Emulator.busy.scheduler.tasks.map (·.key) = [.service (.loop 1), .service .draw, .power] ∧
      OwnersInStep Emulator.busy.scheduler.tasks (some ⟨4⟩) [none, some ⟨2⟩] (some ⟨3⟩) := by
  have responsive : .zero < Power.Config.standard.responseTime := by decide
  have reached : Emulator.Reached .standard .busy :=
    .ticked (.booted .clockAndCounter 0 (.off false) (.ofMillis 10)) 0
  have power : Emulator.busy.manager.handle = some ⟨4⟩ := by decide +kernel
  have loops : Emulator.busy.roster.slots.map (·.loopTask) = [none, some ⟨2⟩] := by decide +kernel
  have drawing : Emulator.busy.roster.drawingTask = some ⟨3⟩ := by decide +kernel
  obtain ⟨emulator, -⟩ := owners_in_step .standard responsive
  obtain ⟨inStep, -⟩ := emulator .busy reached
  rw [power, loops, drawing] at inStep
  exact ⟨responsive, reached, by decide +kernel, inStep⟩

end ConferenceBadge
