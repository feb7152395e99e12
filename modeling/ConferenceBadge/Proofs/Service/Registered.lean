import ConferenceBadge.Proofs.Service.Startup

/-!
What starting services registers. The installed apps are looked at one after the other (`Stage.lookAll`):
those that start get the slots, in this order, and the others leave no trace. The slots and what there is
to draw say which tasks are wanted (`Slot.wanted`); as many of them as there are places for are registered,
in order, and the roster keeps their handles (`Registered`).
-/
namespace ConferenceBadge.Service

variable {κ σ τ ω : Type}

/-- What the kind of task asks for: the loops of services are visible, drawing is hidden. -/
def TaskKey.visibility : TaskKey → Visibility
  | loop _ => .visible
  | draw => .hidden

namespace Slot

/-- The numbers of the slots whose manifests want something, in order. -/
def numbers (wants : Manifest → Bool) (slots : List (Slot σ)) : List Nat :=
  (slots.zipIdx.filter fun s => wants s.1.manifest).map (·.2)

/-- The loops that are wanted, in the order of the slots. -/
def wantedLoops (slots : List (Slot σ)) : List TaskKey := (numbers (·.wantsLoop) slots).map .loop

/-- The tasks that are wanted: the loops, then the drawing task if there is a display and something to draw. -/
def wanted (hostDraws : Bool) (slots : List (Slot σ)) : List TaskKey :=
  wantedLoops slots ++ if hostDraws && slots.any (·.manifest.wantsDraw) then [.draw] else []

theorem numbers_append_one (wants : Manifest → Bool) (slots : List (Slot σ)) (slot : Slot σ) :
    numbers wants (slots ++ [slot]) =
      numbers wants slots ++ if wants slot.manifest then [slots.length] else [] := by
  simp only [numbers, List.zipIdx_append, List.filter_append, List.map_append, List.zipIdx_cons, List.zipIdx_nil,
    Nat.zero_add, List.filter_singleton]
  cases wants slot.manifest <;> rfl

theorem length_numbers_le (wants : Manifest → Bool) (slots : List (Slot σ)) :
    (numbers wants slots).length ≤ slots.length := by
  rw [numbers, List.length_map, ← List.length_zipIdx (l := slots)]
  exact List.length_filter_le _ _

theorem lt_length_of_mem_numbers {wants : Manifest → Bool} {slots : List (Slot σ)} {number : Nat}
    (member : number ∈ numbers wants slots) : number < slots.length := by
  obtain ⟨⟨slot, number⟩, found, rfl⟩ := List.mem_map.mp member
  exact (List.mem_zipIdx' (List.mem_filter.mp found).1).1

/-- No slot is found exactly where none wants it. -/
theorem isEmpty_numbers (wants : Manifest → Bool) (slots : List (Slot σ)) :
    (numbers wants slots).isEmpty = !slots.any fun slot => wants slot.manifest := by
  induction slots using List.reverseRecOn with
  | nil => rfl
  | append_singleton slots slot ih =>
    rw [numbers_append_one]
    cases wanting : wants slot.manifest <;> simp [wanting, ih]

end Slot

/-- Tasks for these keys were registered one after the other, as far as there were places: those that
got one stand behind the tasks that were there, with these handles. -/
structure Granted (key : TaskKey → κ) (s : Scheduler κ τ) (wanted : List TaskKey)
    (granted : List (TaskKey × Handle)) (after : Scheduler κ τ) : Prop where
  capacity : after.capacity = s.capacity
  keys : granted.map (·.1) = wanted.take (s.capacity - s.tasks.length)
  tasks : after.tasks = s.tasks ++ granted.map fun g => .fresh g.2 (key g.1) startDelay g.1.visibility

namespace Granted

variable {key : TaskKey → κ} {s after : Scheduler κ τ} {wanted : List TaskKey} {granted : List (TaskKey × Handle)}

theorem nothing (key : TaskKey → κ) (s : Scheduler κ τ) : Granted key s [] [] s :=
  ⟨rfl, by simp, by simp⟩

/-- A task that was not asked for has no handle. -/
theorem lookup_eq_none (kept : Granted key s wanted granted after) {task : TaskKey} (new : task ∉ wanted) :
    granted.lookup task = none := by
  refine List.lookup_eq_none_iff.mpr fun g member => ?_
  have known : g.1 ∈ wanted := by
    refine List.mem_of_mem_take (i := s.capacity - s.tasks.length) ?_
    rw [← kept.keys]
    exact List.mem_map_of_mem member
  have other : task ≠ g.1 := fun same => new (same ▸ known)
  simpa using other

/-- Registering one more task gives it a handle if there is a place left. -/
theorem add [ToString κ] (kept : Granted key s wanted granted after) {task : TaskKey} (new : task ∉ wanted) :
    ∃ more, Granted key s (wanted ++ [task]) more (after.add (key task) startDelay task.visibility).state ∧
      more.lookup task = (after.add (key task) startDelay task.visibility).answer.toOption ∧
      ∀ other, other ≠ task → more.lookup other = granted.lookup other := by
  have places := congrArg List.length kept.keys
  have filled := congrArg List.length kept.tasks
  simp only [List.length_map, List.length_take, List.length_append] at places filled
  by_cases vacant : after.tasks.length < after.capacity
  · obtain ⟨answer, tasks, capacity⟩ := Scheduler.add_vacant vacant (key task) startDelay task.visibility
    rw [kept.capacity] at vacant
    refine ⟨granted ++ [(task, after.nextHandle)], ⟨capacity.trans kept.capacity, ?_, ?_⟩, ?_, ?_⟩
    · -- All that were asked for so far got a place.
      rw [List.map_append, kept.keys, List.take_of_length_le (by omega), List.take_of_length_le (by simp; omega)]
      rfl
    · rw [tasks, kept.tasks, List.map_append, List.append_assoc]
      rfl
    · rw [answer, List.lookup_append, kept.lookup_eq_none new]
      simp [Except.toOption]
    · intro other different
      have apart : (other == task) = false := beq_false_of_ne different
      simp [List.lookup_append, List.lookup_cons, apart]
  · have refused : after.add (key task) startDelay task.visibility =
        ⟨.error .registryFull, after, (after.add (key task) startDelay task.visibility).log⟩ := by
      simp only [Scheduler.add, vacant, ↓reduceIte]
    rw [kept.capacity] at vacant
    rw [refused]
    refine ⟨granted, ⟨kept.capacity, ?_, kept.tasks⟩, kept.lookup_eq_none new, fun _ _ => rfl⟩
    rw [kept.keys, List.take_append_of_le_length (by omega)]

end Granted

namespace Roster

/-- The tasks that are wanted are registered as far as there were places, and the roster keeps their handles. -/
def Registered (key : TaskKey → κ) (s : Scheduler κ τ) (wanted : List TaskKey) (r : Roster σ)
    (after : Scheduler κ τ) : Prop :=
  ∃ granted, Granted key s wanted granted after ∧ ∀ task, r.owner (.service task) = granted.lookup task

/-- What holds of roster and registry while services are started. -/
structure Filling (rely : (World σ).Rely) (key : TaskKey → κ) (hostDraws : Bool) (s : Scheduler κ τ) (r : Roster σ)
    (after : Scheduler κ τ) : Prop where
  registered : Registered key s (Slot.wantedLoops r.slots) r after
  drawList : r.drawList = if hostDraws then Slot.numbers (·.wantsDraw) r.slots else []
  manifests : ∀ slot ∈ r.slots, ∃ text, rely (.manifest slot.name longestManifest) (.ok text) ∧
    Manifest.parse text = .ok slot.manifest

variable {rely : (World σ).Rely} {key : TaskKey → κ} {hostDraws : Bool} {s after : Scheduler κ τ} {r : Roster σ}

theorem filling_empty (most : Nat) (config : Config) (key : TaskKey → κ) (hostDraws : Bool) (s : Scheduler κ τ) :
    Filling rely key hostDraws s (empty most config) s := by
  refine ⟨⟨[], .nothing key s, fun task => ?_⟩, ?_, fun slot member => absurd member List.not_mem_nil⟩
  · cases task <;> rfl
  · cases hostDraws <;> rfl

/-- One more slot comes in with the handle of its own loop; the handles of the other tasks stay. -/
theorem Registered.grown {wanted : List TaskKey} {granted more : List (TaskKey × Handle)} {slot : Slot σ}
    {drawList : List Nat} (owned : ∀ task, r.owner (.service task) = granted.lookup task)
    (kept : Granted key s wanted more after) (own : more.lookup (.loop r.slots.length) = slot.loopTask)
    (others : ∀ other, other ≠ .loop r.slots.length → more.lookup other = granted.lookup other) :
    Registered key s wanted { r with slots := r.slots ++ [slot], drawList } after := by
  refine ⟨more, kept, fun task => ?_⟩
  -- Whose the handles are does not depend on the draw list.
  have same : owner { r with slots := r.slots ++ [slot], drawList } (.service task) =
      owner { r with slots := r.slots ++ [slot] } (.service task) := by
    cases task <;> rfl
  rw [same, owner_grown]
  by_cases next : task = .loop r.slots.length
  · rw [next, if_pos rfl, own]
  · rw [if_neg fun equal => next (Key.service.inj equal), owned, others task next]

/-- There are never more slots that draw than slots. -/
theorem Filling.length_drawList_le (filling : Filling rely key hostDraws s r after) :
    r.drawList.length ≤ r.slots.length := by
  rw [filling.drawList]
  split
  · exact Slot.length_numbers_le _ _
  · exact Nat.zero_le _

variable [ToString κ]

/-- The loop of the next slot is registered behind the others. -/
theorem ensures_registerLoop_granted {granted : List (TaskKey × Handle)}
    (kept : Granted key s (Slot.wantedLoops r.slots) granted after) (slot : Slot σ) :
    Program.Ensures Scheduler.registry rely
      (fun loopTask last => ∃ more,
        Granted key s (Slot.wantedLoops (r.slots ++ [slot])) more last ∧
        more.lookup (.loop r.slots.length) = loopTask ∧
        ∀ other, other ≠ .loop r.slots.length → more.lookup other = granted.lookup other)
      (registerLoop key r.slots.length slot) after := by
  have new : .loop r.slots.length ∉ Slot.wantedLoops r.slots := by
    intro member
    obtain ⟨number, found, same⟩ := List.mem_map.mp member
    obtain rfl := TaskKey.loop.inj same
    exact Nat.lt_irrefl _ (Slot.lt_length_of_mem_numbers found)
  unfold registerLoop
  rw [Slot.wantedLoops, Slot.numbers_append_one, List.map_append]
  split
  · next wants =>
    obtain ⟨more, left, own, others⟩ := kept.add new
    simp only [Program.ensures_bind, Program.ensures_add, Scheduler.registry]
    change _ = (after.add (key (.loop r.slots.length)) startDelay .visible).answer.toOption at own
    cases answer : (after.add (key (.loop r.slots.length)) startDelay .visible).answer with
    | ok handle => exact ⟨more, left, by rw [own, answer]; rfl, others⟩
    | error e => exact ⟨more, left, by rw [own, answer]; rfl, others⟩
  · next none =>
    refine ⟨granted, ?_, kept.lookup_eq_none new, fun _ _ => rfl⟩
    rw [List.map_nil, List.append_nil]
    exact kept

/-- A service that is ready gets the next slot, its loop if there is a place for it, and its share in the
drawing. -/
theorem ensures_enlist_filling {name : AppName} {slot : Slot σ} (filling : Filling rely key hostDraws s r after)
    (offered : Offered rely hostDraws name slot) (room : r.hasRoom = true) :
    Program.Ensures Scheduler.registry rely
      (fun last left => Filling rely key hostDraws s last left ∧
        last.slots.map (·.name) = r.slots.map (·.name) ++ [name])
      (r.enlist key slot) after := by
  have places := filling.length_drawList_le
  obtain ⟨⟨granted, kept, owned⟩, drawList, manifests⟩ := filling
  obtain ⟨named, -, manifest, draws⟩ := offered
  simp only [hasRoom, Bool.and_eq_true, decide_eq_true_eq] at room
  simp only [enlist, Program.ensures_bind]
  refine (ensures_registerLoop_granted kept slot).mono ?_
  rintro loopTask left ⟨more, kept, own, others⟩
  have grown (list : List Nat)
      (same : list = if hostDraws then Slot.numbers (·.wantsDraw) (r.slots ++ [{ slot with loopTask }]) else []) :
      Filling rely key hostDraws s { r with slots := r.slots ++ [{ slot with loopTask }], drawList := list } left := by
    refine ⟨.grown owned ?_ own others, same, ?_⟩
    · rw [Slot.wantedLoops, Slot.numbers_append_one] at kept ⊢
      exact kept
    · intro other member
      rcases List.mem_append.mp member with old | new
      · exact manifests other old
      · obtain rfl := List.mem_singleton.mp new
        rw [named]
        exact manifest
  have names : (r.slots ++ [({ slot with loopTask } : Slot σ)]).map (·.name) = r.slots.map (·.name) ++ [name] := by
    rw [List.map_append, ← named]
    rfl
  rw [Slot.numbers_append_one] at grown
  by_cases drawing : slot.draws = true
  · rw [if_pos drawing, if_pos (Nat.lt_of_le_of_lt places room.2)]
    refine ⟨grown (r.drawList ++ [r.slots.length]) ?_, names⟩
    rw [draws, Bool.and_eq_true] at drawing
    rw [drawList, drawing.2, if_pos rfl, if_pos rfl, if_pos drawing.1]
  · rw [if_neg drawing]
    refine ⟨grown r.drawList ?_, names⟩
    rw [draws, Bool.and_eq_true, not_and] at drawing
    rw [drawList]
    split
    · next draws => rw [if_neg fun wants => drawing wants draws, List.append_nil]
    · rfl

/-- The drawing task is registered behind the loops, if it is wanted. -/
theorem ensures_registerDraw_registered (filling : Filling rely key hostDraws s r after) :
    Program.Ensures Scheduler.registry rely
      (fun ran last => Registered key s (Slot.wanted hostDraws r.slots) ran.2 last ∧
        ran.1 = ran.2.drawingTask.isSome ∧ ran.2.slots = r.slots)
      (r.registerDraw key hostDraws) after := by
  obtain ⟨⟨granted, kept, owned⟩, drawList, -⟩ := filling
  have new : .draw ∉ Slot.wantedLoops r.slots := by
    intro member
    obtain ⟨number, -, same⟩ := List.mem_map.mp member
    contradiction
  have undrawn : r.drawingTask = none := (owned .draw).trans (kept.lookup_eq_none new)
  have idle : (r.drawList.isEmpty || !hostDraws) = !(hostDraws && r.slots.any (·.manifest.wantsDraw)) := by
    rw [drawList]
    cases hostDraws
    · rfl
    · simp [Slot.isEmpty_numbers]
  unfold registerDraw Slot.wanted
  rw [idle]
  cases hostDraws && r.slots.any (·.manifest.wantsDraw) with
  | false =>
    refine ⟨⟨granted, ?_, owned⟩, by rw [undrawn]; rfl, rfl⟩
    rw [if_neg (by simp), List.append_nil]
    exact kept
  | true =>
    obtain ⟨more, left, own, others⟩ := kept.add new
    change _ = (after.add (key .draw) startDelay .hidden).answer.toOption at own
    have registered {drawingTask : Option Handle} (own : more.lookup .draw = drawingTask) :
        Registered key s (Slot.wantedLoops r.slots ++ [.draw]) { r with drawingTask }
          (after.add (key .draw) startDelay .hidden).state := by
      refine ⟨more, left, fun task => ?_⟩
      cases task with
      | loop slot => exact (owned (.loop slot)).trans (others (.loop slot) (by simp)).symm
      | draw => exact own.symm
    simp only [Bool.not_true, Bool.false_eq_true, ↓reduceIte, Program.ensures_bind, Program.ensures_add,
      Scheduler.registry]
    cases answer : (after.add (key .draw) startDelay .hidden).answer with
    | ok handle =>
      rw [answer] at own
      exact ⟨registered own, rfl, rfl⟩
    | error e =>
      rw [answer] at own
      exact ⟨registered (own.trans undrawn.symm), by rw [undrawn]; rfl, rfl⟩

end Roster

/-- How far the start of services has got: the roster, the registry, the surroundings and whether wifi has failed. -/
structure Stage (κ σ τ ω : Type) where
  roster : Roster σ
  scheduler : Scheduler κ τ
  world : ω
  wifiFailed : Bool

namespace Stage

variable [ToString κ] (handler : Handler (World σ) ω) (key : TaskKey → κ) (hostDraws : Bool)

/-- Looks at one installed app: its name if its service starts, otherwise why it is skipped. -/
def look (index : Nat) (stage : Stage κ σ τ ω) : Except StartError AppName × Stage κ σ τ ω :=
  let asked := handler (.name index) stage.world
  match asked.answer with
  | none => (.error .nameUnreadable, { stage with world := asked.state })
  | some name =>
    let started := (stage.roster.start key name hostDraws stage.wifiFailed).run Scheduler.registry handler
      stage.scheduler asked.state
    let (scheduler, world) := started.state
    match started.answer with
    | .ok roster => (.ok name, { stage with roster, scheduler, world })
    | .error reason =>
      let wifiFailed := stage.wifiFailed || reason = .wifiUnavailable
      (.error reason, { stage with scheduler, world, wifiFailed })

/-- Looks at one app after the other. -/
def lookAll : List Nat → Stage κ σ τ ω → List (Except StartError AppName) × Stage κ σ τ ω
  | [], stage => ([], stage)
  | index :: rest, stage =>
    let (report, next) := stage.look handler key hostDraws index
    let (reports, last) := lookAll rest next
    (report :: reports, last)

/-- Starting services is looking at one app after the other. -/
theorem run_startAll (indices : List Nat) (stage : Stage κ σ τ ω) :
    let ran := (Roster.startAll key hostDraws indices stage.wifiFailed stage.roster).run Scheduler.registry handler
      stage.scheduler stage.world
    let last := (stage.lookAll handler key hostDraws indices).2
    ran.answer = last.roster ∧ ran.state = (last.scheduler, last.world) := by
  induction indices generalizing stage with
  | nil => exact ⟨rfl, rfl⟩
  | cons index rest ih =>
    simp only [Roster.startAll, lookAll, look, Work.on, Program.run_andThen, Program.run, Reply.andThen]
    obtain ⟨name, asked, _⟩ := handler (.name index) stage.world
    cases name with
    | none => exact ih { stage with world := asked }
    | some name =>
      simp only [Program.run_andThen, Reply.andThen]
      obtain ⟨result, ⟨scheduler, world⟩, _⟩ :=
        (stage.roster.start key name hostDraws stage.wifiFailed).run Scheduler.registry handler stage.scheduler asked
      cases result with
      | ok roster => exact ih { stage with roster, scheduler, world }
      | error reason =>
        let wifiFailed := stage.wifiFailed || reason = .wifiUnavailable
        exact ih { stage with scheduler, world, wifiFailed }

variable {s : Scheduler κ τ} (stage : Stage κ σ τ ω)

/-- An app that is looked at leaves what enlisting it leaves, or nothing. -/
theorem look_cases {motive : AppName → Roster σ → Scheduler κ τ → Prop}
    (enlisted : ∀ name slot, Roster.Offered (Interface.given handler) hostDraws name slot →
      stage.roster.hasRoom = true →
        Program.Ensures Scheduler.registry (Interface.given handler) (motive name) (stage.roster.enlist key slot)
          stage.scheduler)
    (index : Nat) :
    let looked := stage.look handler key hostDraws index
    match looked.1 with
    | .ok name => motive name looked.2.roster looked.2.scheduler
    | .error _ => looked.2.roster = stage.roster ∧ looked.2.scheduler = stage.scheduler := by
  simp only [look]
  obtain ⟨name, asked, _⟩ := handler (.name index) stage.world
  cases name with
  | none => exact ⟨rfl, rfl⟩
  | some name =>
    have started := Program.ensures_run (Roster.ensures_start (enlisted name) stage.wifiFailed)
      (Interface.given_kept handler) asked
    revert started
    simp only
    obtain ⟨result, ⟨scheduler, world⟩, _⟩ :=
      (stage.roster.start key name hostDraws stage.wifiFailed).run Scheduler.registry handler stage.scheduler asked
    cases result with
    | ok roster => exact id
    | error reason => exact fun same => ⟨rfl, same⟩

/-- An app that is skipped leaves roster and registry as they were. -/
theorem look_skipped {index : Nat} {reason : StartError}
    (skipped : (stage.look handler key hostDraws index).1 = .error reason) :
    (stage.look handler key hostDraws index).2.roster = stage.roster ∧
      (stage.look handler key hostDraws index).2.scheduler = stage.scheduler := by
  have left := stage.look_cases handler key hostDraws (motive := fun _ _ _ => True)
    (fun _ _ _ _ => .of_always (fun _ _ => trivial) _ _) index
  simp only [skipped] at left
  exact left

/-- An app that starts gets the next slot. -/
theorem look_filling (index : Nat)
    (filling : Roster.Filling (Interface.given handler) key hostDraws s stage.roster stage.scheduler) :
    let looked := stage.look handler key hostDraws index
    Roster.Filling (Interface.given handler) key hostDraws s looked.2.roster looked.2.scheduler ∧
      looked.2.roster.slots.map (·.name) = stage.roster.slots.map (·.name) ++ looked.1.toOption.toList := by
  have left := stage.look_cases handler key hostDraws
    (fun _ _ offered room => Roster.ensures_enlist_filling filling offered room) index
  simp only at left ⊢
  cases report : (stage.look handler key hostDraws index).1 with
  | ok name =>
    simp only [report] at left
    exact left
  | error reason =>
    simp only [report] at left
    rw [left.1, left.2]
    exact ⟨filling, (List.append_nil _).symm⟩

/-- The apps that start get the slots, in order. -/
theorem lookAll_filling (indices : List Nat)
    (filling : Roster.Filling (Interface.given handler) key hostDraws s stage.roster stage.scheduler) :
    let looked := stage.lookAll handler key hostDraws indices
    Roster.Filling (Interface.given handler) key hostDraws s looked.2.roster looked.2.scheduler ∧
      looked.2.roster.slots.map (·.name) = stage.roster.slots.map (·.name) ++ looked.1.filterMap (·.toOption) := by
  induction indices generalizing stage with
  | nil => exact ⟨filling, (List.append_nil _).symm⟩
  | cons index rest ih =>
    have first := stage.look_filling handler key hostDraws index filling
    simp only [lookAll]
    generalize stage.look handler key hostDraws index = looked at first
    obtain ⟨filled, others⟩ := ih looked.2 first.1
    refine ⟨filled, others.trans ?_⟩
    rw [first.2, List.append_assoc, List.filterMap_cons]
    cases looked.1.toOption <;> rfl

end Stage

/-- The numbers of the installed apps; none if the store cannot count them. -/
def installed (handler : Handler (World σ) ω) (w : ω) : List Nat :=
  match (handler .count w).answer with
  | .ok count => List.range count
  | .error _ => []

namespace Roster

variable [ToString κ]

/-- Starting the installed services is looking at the installed apps one after the other; then the drawing
task is registered. -/
theorem run_startInstalled (r : Roster σ) (none : r.drawList = []) (key : TaskKey → κ) (hostDraws : Bool)
    (handler : Handler (World σ) ω) (w : ω) (s : Scheduler κ τ) :
    let ran := (r.startInstalled key hostDraws).run Scheduler.registry handler s w
    let first : Stage κ σ τ ω := ⟨r, s, (handler .count w).state, false⟩
    let last := (first.lookAll handler key hostDraws (installed handler w)).2
    let drawn := (last.roster.registerDraw key hostDraws).run Scheduler.registry handler last.scheduler last.world
    ran.answer = drawn.answer ∧ ran.state = drawn.state := by
  simp only [startInstalled, installed, Work.on, Program.run_andThen, Program.run, Reply.andThen]
  obtain ⟨count, counted, _⟩ := handler .count w
  cases count with
  | error e =>
    have idle : r.registerDraw key hostDraws = pure (false, r) := by
      rw [registerDraw, if_pos (by rw [none]; rfl)]
    simp only [Stage.lookAll, idle]
    exact ⟨rfl, rfl⟩
  | ok count =>
    obtain ⟨answer, state⟩ := Stage.run_startAll handler key hostDraws (List.range count) ⟨r, s, counted, false⟩
    simp only [Program.run_andThen, Reply.andThen, answer, state, and_self]

/-- Whatever the store, the network and the services do: the slots hold the apps that start, in order, with
the manifests that the store has for them; an app that is skipped leaves no trace; of the tasks that are
wanted, as many are registered as there are places for, in order; and the roster keeps their handles. It
is reported whether the drawing task is one of them. -/
theorem startInstalled_registers (most : Nat) (config : Config) (key : TaskKey → κ) (hostDraws : Bool)
    (handler : Handler (World σ) ω) (w : ω) (s : Scheduler κ τ) :
    let setUp := ((empty most config : Roster σ).startInstalled key hostDraws).run Scheduler.registry handler s w
    let roster := setUp.answer.2
    let first : Stage κ σ τ ω := ⟨empty most config, s, (handler .count w).state, false⟩
    let looked := first.lookAll handler key hostDraws (installed handler w)
    (roster.slots = looked.2.roster.slots ∧ roster.slots.map (·.name) = looked.1.filterMap (·.toOption) ∧
      ∀ slot ∈ roster.slots, ∃ text, Interface.given handler (.manifest slot.name longestManifest) (.ok text) ∧
        Manifest.parse text = .ok slot.manifest) ∧
    (∀ (stage : Stage κ σ τ ω) index reason, (stage.look handler key hostDraws index).1 = .error reason →
      (stage.look handler key hostDraws index).2.roster = stage.roster ∧
        (stage.look handler key hostDraws index).2.scheduler = stage.scheduler) ∧
    ∃ granted, Granted key s (Slot.wanted hostDraws roster.slots) granted setUp.state.1 ∧
      (∀ number slot, roster.slots[number]? = some slot → slot.loopTask = granted.lookup (.loop number)) ∧
      roster.drawingTask = granted.lookup .draw ∧ setUp.answer.1 = roster.drawingTask.isSome ∧
      (setUp.answer.1 = true ↔ .draw ∈ granted.map (·.1)) := by
  intro setUp roster first looked
  obtain ⟨answer, state⟩ := run_startInstalled (empty most config : Roster σ) rfl key hostDraws handler w s
  have filled := first.lookAll_filling handler key hostDraws (installed handler w)
    (filling_empty most config key hostDraws s)
  have drawn := Program.ensures_run (ensures_registerDraw_registered filled.1) (Interface.given_kept handler)
    looked.2.world
  rw [← answer, ← state] at drawn
  obtain ⟨⟨granted, kept, owned⟩, told, slots⟩ := drawn
  have slots : roster.slots = looked.2.roster.slots := slots
  have told : setUp.answer.1 = roster.drawingTask.isSome := told
  have drawing : roster.drawingTask = granted.lookup .draw := owned .draw
  refine ⟨⟨slots, ?_, ?_⟩, fun stage _ _ => stage.look_skipped handler key hostDraws,
    granted, ?_, ?_, drawing, told, ?_⟩
  · rw [slots]
    exact filled.2
  · rw [slots]
    exact filled.1.manifests
  · rw [slots]
    exact kept
  · intro number slot found
    have owner := owned (.loop number)
    rw [← owner, Roster.owner]
    show _ = (Slot.loopTasks roster.slots)[number]?.join
    simp only [Slot.loopTasks, List.getElem?_map, found, Option.map_some, Option.join_some]
  · rw [told, drawing, List.lookup_isSome_iff]
    simp

/-- Three apps, the second without a manifest; the others loop and draw. -/
def threeApps : Handler (World Unit) Unit
  | .count, w => ⟨.ok 3, w, []⟩
  | .name index, w => ⟨AppName.ofString? (["clock", "notes", "weather"].getD index ""), w, []⟩
  | .manifest app _, w =>
    let needs := "\x7b\"apiVersion\": 2, \"wifi\": \x7b\"setup\": false\x7d, \"rtc\": false, "
    let text := needs ++ "\"loop\": true, \"draw\": true\x7d"
    ⟨if app.text = "notes" then .error .notFound else .ok text, w, []⟩
  | .service _, w => ⟨.ok (), w, []⟩
  | .connected, w | .connect, w | .setClock, w => ⟨true, w, []⟩
  | .time, w | .height, w => ⟨0, w, []⟩
  | .setUp _, w => ⟨(.ok (), ()), w, []⟩
  | .loop _, w => ⟨(.ok .remove, ()), w, []⟩
  | .draw _ _, w => ⟨(.error .notProvided, ()), w, []⟩
  | .beginDrawing, w | .endDrawing, w => ⟨(), w, []⟩

/-- A scheduler with two places left. -/
def almostFull : Scheduler Key Unit := ((Scheduler.empty 3 ()).add .power (.ofMillis 10) .hidden).state

/-- The loops of the two services that start take the places, and the drawing task is not registered. -/
theorem startInstalled_registers_almostFull :
    let setUp := ((empty 8 .standard : Roster Unit).startInstalled Key.service true).run Scheduler.registry threeApps
      almostFull ()
    setUp.answer.2.slots.map (·.name.text) = ["clock", "weather"] ∧
      (∃ granted, Granted Key.service almostFull [.loop 0, .loop 1, .draw] granted setUp.state.1 ∧
        granted.map (·.1) = [.loop 0, .loop 1] ∧ setUp.answer.2.drawingTask = granted.lookup .draw) ∧
      setUp.answer.1 = false := by
  obtain ⟨-, -, granted, kept, -, drawing, -, -⟩ :=
    startInstalled_registers 8 .standard Key.service true threeApps () almostFull
  have wanted : Slot.wanted true (((empty 8 .standard : Roster Unit).startInstalled Key.service true).run
      Scheduler.registry threeApps almostFull ()).answer.2.slots = [.loop 0, .loop 1, .draw] := by decide +kernel
  rw [wanted] at kept
  exact ⟨by decide +kernel, ⟨granted, kept, kept.keys, drawing⟩, by decide +kernel⟩

end Roster
end ConferenceBadge.Service
