import ConferenceBadge.Key
import ConferenceBadge.Proofs.Scheduler.Overlay
import ConferenceBadge.Proofs.Service.Running
import ConferenceBadge.Service.Startup

/-!
What starting services leaves: a roster whose slots, and whose drawing, keep the handles of just the
tasks that are registered (`Started`), each under a handle of its own. As long as there are more places
than slots, every loop that is wanted and the drawing task are registered.
-/
namespace ConferenceBadge

/-- What the kind of task asks for: the loops of services are visible, the other tasks hidden. -/
def Key.visibility : Key → Visibility
  | .service (.loop _) => .visible
  | .power | .service .draw => .hidden

namespace Service.Roster

variable {κ σ ω τ : Type} {registry : Registry κ ω} {rely : (World σ).Rely} {s : ω}

theorem ensures_requireWifi (manifest : Manifest) (failed : Bool) :
    Program.Ensures registry rely (fun _ after => after = s) (requireWifi (σ := σ) manifest failed) s := by
  unfold requireWifi
  split
  · split
    · rfl
    · rw [Program.ensures_bind]
      refine Work.ensures_bringUpWifi fun up => ?_
      cases up <;> rfl
  · rfl

theorem ensures_requireClock (r : Roster σ) (name : AppName) (manifest : Manifest) (failed : Bool) :
    Program.Ensures registry rely (fun _ after => after = s) (r.requireClock name manifest failed) s := by
  unfold requireClock
  split
  · simp only [Program.ensures_bind, Work.on, Program.ensures_call, Program.ensures_done]
    intro time _
    split
    · split
      · rfl
      · simp only [Program.ensures_bind, Work.ensures_log, Program.ensures_call, Program.ensures_done]
        intro set _
        split <;> rfl
    · rfl
  · rfl

theorem ensures_manifestOf (r : Roster σ) (name : AppName) :
    Program.Ensures registry rely
      (fun result after => after = s ∧ ∀ manifest, result = .ok manifest →
        ∃ text, rely (.manifest name longestManifest) (.ok text) ∧ Manifest.parse text = .ok manifest)
      (r.manifestOf name) s := by
  simp only [manifestOf, Program.ensures_bind, Work.on, Program.ensures_call, Program.ensures_done]
  intro text offered
  cases text with
  | error e => exact ⟨rfl, fun _ ok => by contradiction⟩
  | ok text =>
    cases parsed : Manifest.parse text with
    | error e =>
      simp only [parsed, Program.ensures_noting, Program.ensures_pure]
      exact ⟨trivial, fun _ ok => by contradiction⟩
    | ok manifest =>
      simp only [parsed]
      split
      · exact ⟨rfl, fun _ ok => by contradiction⟩
      · refine ⟨rfl, fun same ok => ⟨text, offered, ?_⟩⟩
        rw [parsed, Except.ok.inj ok]

/-- A slot for an app holds the service that is offered for it, as its own setup leaves it, and the manifest
that its text is read as. -/
structure Offered (rely : (World σ).Rely) (hostDraws : Bool) (name : AppName) (slot : Slot σ) : Prop where
  named : slot.name = name
  service : ∃ first, rely (.service name) (.ok first) ∧ rely (.setUp first) (.ok (), slot.service)
  manifest : ∃ text, rely (.manifest name longestManifest) (.ok text) ∧ Manifest.parse text = .ok slot.manifest
  draws : slot.draws = (slot.manifest.wantsDraw && hostDraws)

/-- Making a service ready asks the registry for nothing. -/
theorem ensures_ready (r : Roster σ) (name : AppName) (hostDraws wifiFailed : Bool) :
    Program.Ensures registry rely
      (fun ready after => after = s ∧ ∀ slot, ready = .ok slot → Offered rely hostDraws name slot)
      (r.ready name hostDraws wifiFailed) s := by
  have failed (e : StartError) :
      s = s ∧ ∀ slot : Slot σ, Except.error e = .ok slot → Offered rely hostDraws name slot :=
    ⟨rfl, fun _ ok => by contradiction⟩
  simp only [ready, Program.ensures_bind]
  refine (ensures_manifestOf r name).mono ?_
  rintro manifest after ⟨rfl, read⟩
  cases manifest with
  | error e => exact failed e
  | ok manifest =>
    simp only [Program.ensures_bind, Work.on, Program.ensures_call, Program.ensures_done]
    intro service offered
    cases service with
    | error e => exact failed _
    | ok service =>
      simp only [Program.ensures_bind]
      refine (ensures_requireWifi manifest wifiFailed).mono ?_
      rintro wifi after rfl
      cases wifi with
      | error e => exact failed e
      | ok _ =>
        simp only [Program.ensures_bind]
        refine (ensures_requireClock r name manifest wifiFailed).mono ?_
        rintro clock after rfl
        cases clock with
        | error e => exact failed e
        | ok _ =>
          simp only [Program.ensures_bind, Program.ensures_call, Program.ensures_done]
          rintro ⟨result, last⟩ setUp
          cases result with
          | error e => exact failed _
          | ok _ =>
            refine ⟨rfl, fun slot same => ?_⟩
            obtain rfl := Except.ok.inj same
            exact ⟨rfl, ⟨service, offered, setUp⟩, read manifest rfl, rfl⟩

/-- Starting a service leaves what enlisting it leaves, or nothing. -/
theorem ensures_start {r : Roster σ} {key : TaskKey → κ} {name : AppName} {post : Roster σ → ω → Prop}
    {hostDraws : Bool} (enlisted : ∀ slot, Offered rely hostDraws name slot → r.hasRoom = true →
      Program.Ensures registry rely post (r.enlist key slot) s)
    (wifiFailed : Bool) :
    Program.Ensures registry rely
      (fun result after =>
        match result with
        | .ok last => post last after
        | .error _ => after = s)
      (r.start key name hostDraws wifiFailed) s := by
  simp only [start, Program.ensures_bind]
  refine (ensures_ready r name hostDraws wifiFailed).mono ?_
  rintro ready after ⟨rfl, offered⟩
  cases ready with
  | error e => rfl
  | ok slot =>
    simp only
    split
    · next room =>
      rw [Program.ensures_bind]
      exact enlisted slot (offered slot rfl) room
    · rfl

/-- What enlisting one service after the other keeps, starting them keeps; `motive` may be about the apps
that are still to come. -/
theorem ensures_startAll {motive : List Nat → Roster σ → ω → Prop} {key : TaskKey → κ} {hostDraws : Bool}
    (skipped : ∀ index rest r s, motive (index :: rest) r s → motive rest r s)
    (enlisted : ∀ index rest r s name slot, motive (index :: rest) r s → rely (.name index) (some name) →
      Offered rely hostDraws name slot → r.hasRoom = true →
        Program.Ensures registry rely (motive rest) (r.enlist key slot) s)
    (indices : List Nat) (wifiFailed : Bool) {r : Roster σ} {s : ω}
    (before : motive indices r s) :
    Program.Ensures registry rely (motive []) (startAll key hostDraws indices wifiFailed r) s := by
  induction indices generalizing wifiFailed r s with
  | nil => exact before
  | cons index rest ih =>
    simp only [startAll, Program.ensures_bind, Work.on, Program.ensures_call, Program.ensures_done]
    intro name named
    cases name with
    | none => exact ih wifiFailed (skipped index rest r s before)
    | some name =>
      simp only [Program.ensures_bind]
      refine (ensures_start (fun slot => enlisted index rest r s name slot before named) wifiFailed).mono ?_
      intro result after left
      cases result with
      | ok last => exact ih wifiFailed left
      | error reason =>
        obtain rfl := left
        exact ih _ (skipped index rest r _ before)

/-- The handle that a roster keeps for a key. -/
def owner (r : Roster σ) : Key → Option Handle
  | .power => none
  | .service (.loop slot) => (Slot.loopTasks r.slots)[slot]?.join
  | .service .draw => r.drawingTask

/-- One more slot brings in the owner of one more loop. -/
theorem owner_grown (r : Roster σ) (slot : Slot σ) (key : Key) :
    owner { r with slots := r.slots ++ [slot] } key =
      if key = .service (.loop r.slots.length) then slot.loopTask else r.owner key := by
  cases key with
  | power => rfl
  | service task =>
    cases task with
    | draw => rfl
    | loop number =>
      simp only [owner, Slot.loopTasks, List.map_append, List.map_cons, List.map_nil, Key.service.injEq,
        TaskKey.loop.injEq]
      rcases Nat.lt_trichotomy number r.slots.length with below | rfl | above
      · rw [List.getElem?_append_left (by simpa using below), if_neg (by omega)]
      · rw [if_pos rfl, ← List.length_map (·.loopTask), List.getElem?_concat_length]
        rfl
      · rw [if_neg (by omega), List.getElem?_eq_none (by simp; omega), List.getElem?_eq_none (by simp; omega)]

/-- Started services with so many slots at most: the roster and the registry agree, no two tasks share a
handle, there is room for two more tasks than slots, and every loop that is wanted is registered. -/
structure Started (most : Nat) (r : Roster σ) (s : Scheduler Key τ) : Prop where
  agree : OwnersAgree s.tasks Key.visibility r.owner
  sound : s.Sound s.tasks.length
  few : s.capacity < Handle.numbers
  rules : r.config = .standard
  capacity : r.capacity = most
  room : r.slots.length ≤ most
  places : most + 2 ≤ s.capacity
  loops : ∀ slot ∈ r.slots, slot.loopTask.isSome = slot.manifest.wantsLoop

namespace Started

variable {most : Nat} {r : Roster σ} {s : Scheduler Key τ}

/-- There is always a place left for another task. -/
theorem vacant (started : Started most r s) : s.tasks.length < s.capacity := by
  have bound := started.agree.length_le
    (.service .draw :: (List.range r.slots.length).map fun slot => .service (.loop slot)) (by
      intro key handle known
      cases key with
      | power => contradiction
      | service task =>
        cases task with
        | draw => exact List.mem_cons_self
        | loop slot =>
          refine List.mem_cons_of_mem _ (List.mem_map.mpr ⟨slot, List.mem_range.mpr ?_, rfl⟩)
          by_contra beyond
          rw [owner, List.getElem?_eq_none (by simpa [Slot.loopTasks] using beyond)] at known
          contradiction)
  have room := started.room
  have places := started.places
  simp only [List.length_cons, List.length_map, List.length_range] at bound
  omega

theorem empty (none : s.tasks = []) (sound : s.Sound 0) (few : s.capacity < Handle.numbers)
    (places : most + 2 ≤ s.capacity) : Started most (Roster.empty most .standard : Roster σ) s := by
  have fresh : s.Sound s.tasks.length := by rwa [none]
  refine ⟨?_, fresh, few, rfl, rfl, Nat.zero_le _, places, fun slot member => absurd member List.not_mem_nil⟩
  rw [none]
  refine OwnersAgree.nil fun key => ?_
  cases key with
  | power => rfl
  | service task => cases task <;> rfl

/-- A started service gets the next slot, and its loop is registered if it wants one. -/
theorem enlisted (started : Started most r s) (room : r.slots.length < r.capacity) {slot : Slot σ}
    {after : Scheduler Key τ} (capacity : after.capacity = s.capacity) (sound : after.Sound after.tasks.length)
    (loop : slot.loopTask.isSome = slot.manifest.wantsLoop)
    (agree : OwnersAgree after.tasks Key.visibility (owner { r with slots := r.slots ++ [slot] })) :
    Started most { r with slots := r.slots ++ [slot] } after := by
  refine ⟨agree, sound, capacity ▸ started.few, started.rules, started.capacity, ?_, capacity ▸ started.places, ?_⟩
  · rw [List.length_append, ← started.capacity]
    exact room
  · intro other member
    rcases List.mem_append.mp member with old | new
    · exact started.loops other old
    · rw [List.mem_singleton.mp new, loop]

end Started

/-- Registering a loop that is wanted never fails. -/
theorem ensures_registerLoop {most : Nat} {r : Roster σ} {s : Scheduler Key τ} (started : Started most r s)
    (room : r.slots.length < r.capacity) (slot : Slot σ) :
    Program.Ensures Scheduler.registry rely
      (fun loopTask after => Started most { r with slots := r.slots ++ [{ slot with loopTask }] } after)
      (registerLoop Key.service r.slots.length slot) s := by
  have free : r.owner (.service (.loop r.slots.length)) = none := by
    rw [owner, List.getElem?_eq_none (by simp [Slot.loopTasks])]
    rfl
  unfold registerLoop
  split
  · next wanted =>
    obtain ⟨answer, tasks, capacity⟩ :=
      Scheduler.add_vacant started.vacant (Key.service (.loop r.slots.length)) startDelay .visible
    simp only [Program.ensures_bind, Program.ensures_add, Scheduler.registry, answer, Program.ensures_pure]
    refine started.enlisted room capacity (started.sound.grown started.vacant started.few _ _ _) wanted.symm ?_
    rw [tasks]
    refine started.agree.add free ?_ ?_ startDelay
    · rw [owner_grown, if_pos rfl]
    · intro key other
      rw [owner_grown, if_neg other]
  · next unwanted =>
    refine started.enlisted room rfl started.sound ?_ ?_
    · simpa using unwanted
    · have same : owner { r with slots := r.slots ++ [{ slot with loopTask := none }] } = r.owner := by
        funext key
        rw [owner_grown]
        split
        · next equal => rw [equal, free]
        · rfl
      rw [same]
      exact started.agree

theorem ensures_enlist {most : Nat} {r : Roster σ} {s : Scheduler Key τ} (started : Started most r s)
    (undrawn : r.drawingTask = none) (room : r.hasRoom = true) (slot : Slot σ) :
    Program.Ensures Scheduler.registry rely (fun last after => Started most last after ∧ last.drawingTask = none)
      (r.enlist Key.service slot) s := by
  simp only [hasRoom, Bool.and_eq_true, decide_eq_true_eq] at room
  simp only [enlist, Program.ensures_bind]
  refine (ensures_registerLoop started room.2 slot).mono ?_
  intro loopTask after grown
  -- The draw list is not part of what a roster keeps for the registry.
  obtain ⟨agree, sound, few, rules, capacity, filled, places, loops⟩ := grown
  have left (drawList : List Nat) : Started most { r with slots := r.slots ++ [{ slot with loopTask }], drawList } after :=
    ⟨agree, sound, few, rules, capacity, filled, places, loops⟩
  split
  · split <;> exact ⟨left _, undrawn⟩
  · exact ⟨left _, undrawn⟩

/-- Registering the drawing task never fails where there is something to draw. -/
theorem ensures_registerDraw {most : Nat} {r : Roster σ} {s : Scheduler Key τ} (started : Started most r s)
    (undrawn : r.drawingTask = none) (hostDraws : Bool) :
    Program.Ensures Scheduler.registry rely
      (fun ran after => Started most ran.2 after ∧
        ran.2.drawingTask.isSome = (hostDraws && !ran.2.drawList.isEmpty))
      (r.registerDraw Key.service hostDraws) s := by
  unfold registerDraw
  split
  · next idle =>
    refine ⟨started, ?_⟩
    rw [undrawn]
    cases hostDraws <;> cases empty : r.drawList.isEmpty <;> simp_all
  · next wanted =>
    obtain ⟨answer, tasks, capacity⟩ := Scheduler.add_vacant started.vacant (Key.service .draw) startDelay .hidden
    simp only [Program.ensures_bind, Program.ensures_add, Scheduler.registry, answer, Work.ensures_log,
      Program.ensures_pure]
    have sound := started.sound.grown started.vacant started.few (.service .draw) startDelay .hidden
    obtain ⟨agree, -, few, rules, slots, filled, places, loops⟩ := started
    refine ⟨⟨?_, sound, capacity ▸ few, rules, slots, filled, capacity ▸ places, loops⟩, ?_⟩
    · rw [tasks]
      have free : r.owner (.service .draw) = none := undrawn
      refine agree.add free rfl ?_ startDelay
      intro key other
      cases key with
      | power => rfl
      | service task =>
        cases task with
        | loop slot => rfl
        | draw => contradiction
    · simp_all

theorem ensures_startInstalled {most : Nat} {s : Scheduler Key τ} (none : s.tasks = []) (sound : s.Sound 0)
    (few : s.capacity < Handle.numbers) (places : most + 2 ≤ s.capacity) (hostDraws : Bool) :
    Program.Ensures Scheduler.registry rely
      (fun ran after => Started most ran.2 after ∧
        ran.2.drawingTask.isSome = (hostDraws && !ran.2.drawList.isEmpty))
      ((empty most .standard : Roster σ).startInstalled Key.service hostDraws) s := by
  have started : Started most (empty most .standard : Roster σ) s := .empty none sound few places
  simp only [startInstalled, Program.ensures_bind, Work.on, Program.ensures_call, Program.ensures_done]
  intro count _
  cases count with
  | error e =>
    refine ⟨started, ?_⟩
    simp [empty]
  | ok count =>
    simp only [Program.ensures_bind]
    refine (ensures_startAll (motive := fun _ r s => Started most r s ∧ r.drawingTask = .none)
      (fun _ _ _ _ before => before) ?_ (List.range count) false ⟨started, rfl⟩).mono ?_
    · rintro index rest r s name slot ⟨started, undrawn⟩ - - room
      exact ensures_enlist started undrawn room slot
    · rintro last after ⟨left, undrawn⟩
      exact ensures_registerDraw left undrawn hostDraws

end Service.Roster
end ConferenceBadge
