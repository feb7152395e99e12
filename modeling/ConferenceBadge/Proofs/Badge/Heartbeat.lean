import ConferenceBadge.Proofs.Badge.Patience
import ConferenceBadge.Proofs.Scheduler.Chronicle

/-!
The badge on its board stays awake for its heartbeat. What is seen of it are the beats and the requests
for sleep, in order (`Badge.course`). As long as the heartbeat has beats to come, its loop is the first
task and visible, so idle detection finds no more than a second left and lets it be (`Beating`); once it is
over, idle detection is all there is (`Finished`). A handle that is given out meanwhile is not the
heartbeat's, since a tick leads to one new handle at most, however often the button is pressed (`Minting`).
-/
namespace ConferenceBadge

theorem Duration.ofMillis_add (a b : Nat) : ofMillis a + ofMillis b = ofMillis (a + b) := by
  apply ext
  simp only [nanos_add, ofMillis, nanos_ofNanos]
  omega

/-- What is asked between ticks leaves the uptime. -/
theorem Scheduler.uptime_run {κ τ ω α : Type} {I : Interface} [ToString κ] (p : Program κ I α) (handler : Handler I ω)
    (s : Scheduler κ τ) (w : ω) : (p.run registry handler s w).state.1.uptime = s.uptime :=
  Program.run_kept registry handler (motive := fun now _ => now.uptime = s.uptime)
    (fun q now _ same => (uptime_registry q now).trans same) (fun _ _ _ same => same) p rfl

namespace Board

/-- The key of the heartbeat's loop: the heartbeat has the first slot. -/
def pulse : Key := .service (.loop 0)

/-- What is seen of a badge on its board. -/
inductive Sight where
  /-- the loop of the heartbeat ran in the tick that led to this uptime -/
  | beat (uptime : Duration)
  /-- idle detection asked for sleep, and this request was left -/
  | asked (request : Option Power.SleepRequest)
deriving DecidableEq

/-- A request for sleep that was made on the way from one state to another. -/
def SharedState.askedSince (found left : SharedState) : List Sight :=
  if left.manager.requests = found.manager.requests then [] else [.asked left.sleep]

theorem SharedState.askedSince_self (s : SharedState) : s.askedSince s = [] := if_pos rfl

/-- A request for sleep adds one to the requests of the manager. -/
theorem SharedState.askedSince_asked (s : SharedState) (idle : IdleTime) :
    s.askedSince { s with
      manager := { s.manager with requests := s.manager.requests + 1 }, sleep := some ⟨idle.duration?⟩ } =
      [.asked (some ⟨idle.duration?⟩)] := by
  have counted : s.manager.requests + 1 ≠ s.manager.requests := by simp
  rw [askedSince, if_neg counted]

/-- What is seen of one run of a task. -/
def Sight.ofRun (uptime : Duration) (run : Stint Key SharedState) : List Sight :=
  (if run.key = pulse then [.beat uptime] else []) ++ run.found.askedSince run.left

namespace Badge

/-- What is seen in a step. -/
def seen (b : Badge) : Step → List Sight
  | .tick => (b.scheduler.stints SharedState.code b.shared).flatMap (Sight.ofRun b.tick.state.scheduler.uptime)
  | .press => b.shared.askedSince b.press.state.shared
  | .takeSleep => b.shared.askedSince b.takeSleep.state.shared

/-- What is seen in some steps, one after the other. -/
def course : Badge → List Step → List Sight
  | _, [] => []
  | b, a :: rest => b.seen a ++ (b.step a).course rest

/-- The badge after some steps. -/
def after (b : Badge) (steps : List Step) : Badge := steps.foldl step b

end Badge

/-- How many ticks the loop of the heartbeat waits without being due, after so many beats: it is started
with a delay of a millisecond and comes back after a second. -/
def pause : Nat → Nat
  | 0 => 0
  | _ + 1 => 100

/-- How many ticks there are up to the one with the last of so many beats. -/
def ticksUntil : Nat → Nat
  | 0 => 0
  | n + 1 => ticksUntil n + pause n + 1

/-- The uptime of the tick with one more than so many beats. -/
def beatTime (n : Nat) : Duration := .ofMillis (10 + 1010 * n)

theorem ticksUntil_succ (n : Nat) : ticksUntil (n + 1) = 101 * n + 1 := by
  induction n with
  | zero => rfl
  | succ n ih =>
    rw [ticksUntil, ih]
    simp only [pause]
    omega

theorem beatTime_eq (n : Nat) : beatTime n = .ofMillis (10 * ticksUntil (n + 1)) := by
  rw [ticksUntil_succ, beatTime]
  congr 1
  omega

/-- So many beats, as they are seen. -/
def beats (n : Nat) : List Sight := (List.range n).map fun i => .beat (beatTime i)

theorem beats_succ (n : Nat) : beats (n + 1) = beats n ++ [.beat (beatTime n)] := by
  rw [beats, List.range_succ, List.map_append]
  rfl

/-- The heartbeat has the only slot and has beaten so often; its loop needs no wifi. -/
structure Alive (n : Nat) (r : Service.Roster Heartbeat) : Prop where
  slot : ∃ slot, r.slots = [slot] ∧ slot.service = ⟨.ofNat n, 30⟩ ∧ slot.manifest.wifiAtLoop = false

theorem Alive.beaten {n : Nat} {r : Service.Roster Heartbeat} (alive : Alive n r) (loopTask : Option Handle) :
    Alive (n + 1) (r.modify 0 fun slot => { slot with service := ⟨.ofNat n + 1, 30⟩, loopTask }) := by
  obtain ⟨slot, alone, -, wireless⟩ := alive
  refine ⟨{ slot with service := ⟨.ofNat n + 1, 30⟩, loopTask }, ?_, ?_, wireless⟩
  · rw [Service.Roster.modify, alone]
    rfl
  · rw [UInt32.ofNat_add]
    rfl

/-- One run of the heartbeat's loop. -/
theorem SharedState.ensures_pulse {n : Nat} {s : SharedState} (alive : Alive n s.roster) (p : Pass Key) :
    Program.Ensures Pass.registry (Interface.anyone .silent)
      (fun ran after => after = p ∧ ran.1 = .ok (if 30 ≤ UInt32.ofNat n + 1 then .remove else .ofMillis 1000) ∧
        ran.2.manager = s.manager ∧ ran.2.sleep = s.sleep ∧ ran.2.counters = s.counters.record .heartbeats ∧
        Alive (n + 1) ran.2.roster)
      (code (.service (.loop 0)) s) p := by
  obtain ⟨slot, alone, service, wireless⟩ := alive.slot
  simp only [code, Service.Roster.loopOnce, alone, List.getElem?_cons_zero, wireless, Bool.false_eq_true, ↓reduceIte,
    pure_bind, Program.ensures_bind, Program.serve_andThen]
  refine Program.ensures_serve_call.mpr ?_
  simp only [world, Heartbeat.beat, service]
  exact ⟨rfl, rfl, rfl, rfl, rfl, alive.beaten _⟩

/-- The task of the heartbeat's loop, so many ticks after it began to wait for the beat after `n`. -/
def loopTask (n ticks : Nat) : Task Key :=
  ⟨.first, pulse, .ofMillis (10 * ticks), if n = 0 then Service.startDelay else .ofMillis 1000, .visible⟩

theorem isDue_loopTask (n ticks : Nat) : (loopTask n ticks).isDue = decide (pause n < ticks) := by
  apply decide_eq_decide.mpr
  cases n with
  | zero =>
    simp only [loopTask, ↓reduceIte, Service.startDelay, Duration.lt_iff, Duration.ofMillis, Duration.nanos_ofNanos,
      Duration.maxNanos, pause]
    omega
  | succ n =>
    simp only [loopTask, Nat.add_one_ne_zero, ↓reduceIte, Duration.lt_iff, Duration.ofMillis, Duration.nanos_ofNanos,
      Duration.maxNanos, pause]
    omega

theorem aged_loopTask (n ticks : Nat) : (loopTask n ticks).aged defaultPeriod = loopTask n (ticks + 1) := by
  rw [Task.aged, loopTask, defaultPeriod, Duration.ofMillis_add]
  rfl

/-- No more than a second is left until the heartbeat's loop is due. -/
theorem left_loopTask (n ticks : Nat) : (loopTask n ticks).left ≤ .ofMillis 1000 := by
  have target : (if n = 0 then Service.startDelay else .ofMillis 1000) ≤ Duration.ofMillis 1000 := by
    split <;> decide
  exact Nat.le_trans (Nat.sub_le _ _) target

/-- Tasks that are all idle detection. -/
def OnlyIdleDetection (tasks : List (Task Key)) : Prop := ∀ t ∈ tasks, t.key = .power ∧ t.visibility = .hidden

theorem OnlyIdleDetection.aged {tasks : List (Task Key)} (only : OnlyIdleDetection tasks) (period : Duration) :
    OnlyIdleDetection (tasks.map (·.aged period)) := by
  intro t member
  obtain ⟨u, there, rfl⟩ := List.mem_map.mp member
  exact only u there

/-- What a run leaves of idle detection is idle detection. -/
theorem OnlyIdleDetection.settled {kept rest : List (Task Key)} {t : Task Key}
    (only : OnlyIdleDetection (kept ++ t :: rest)) (settlement : Settlement) :
    OnlyIdleDetection (kept ++ (Entry.survivor? ⟨t, some settlement⟩).toList ++ rest) := by
  intro u member
  rw [List.mem_append, List.mem_append] at member
  rcases member with (before | now) | behind
  · exact only u (List.mem_append_left _ before)
  · have same := Pass.identity_of_survivor? (Option.mem_toList.mp now)
    simp only [Task.identity, Prod.mk.injEq] at same
    rw [same.1, same.2.2]
    exact only t (List.mem_append_right _ List.mem_cons_self)
  · exact only u (List.mem_append_right _ (List.mem_cons_of_mem t behind))

/-- There are beats to come: `n` of them have been, the loop of the heartbeat has waited for some ticks
and is the first task, and the manager is still as it was and has not asked for sleep. -/
structure Beating (m : Power.Manager Key Empty) (start : Counters) (n ticks : Nat) (tasks : List (Task Key))
    (s : SharedState) : Prop where
  few : n < 30
  tasks : ∃ others, tasks = loopTask n ticks :: others ∧ OnlyIdleDetection others
  alive : Alive n s.roster
  counted : s.counters.heartbeats = start.heartbeats + .ofNat n
  manager : s.manager = m
  key : s.manager.key = .power
  awake : s.sleep = none

/-- The heartbeat is over: only idle detection is left, and a request for sleep is for any time. -/
structure Finished (start : Counters) (tasks : List (Task Key)) (s : SharedState) : Prop where
  tasks : OnlyIdleDetection tasks
  counted : s.counters.heartbeats = start.heartbeats + 30
  key : s.manager.key = .power
  untimed : ∀ request, s.sleep = some request → request = ⟨none⟩

variable {m : Power.Manager Key Empty} {start : Counters} {n ticks : Nat} {kept rest tasks : List (Task Key)}
  {t : Task Key} {s : SharedState}

namespace Beating

/-- While there are beats to come, the idle time is not long. -/
theorem short (heart : Beating m start n ticks tasks s) (patient : .ofMillis 1000 ≤ m.config.sleepThreshold) :
    (Task.idleTime tasks).longerThan m.config.sleepThreshold = false := by
  obtain ⟨others, rfl, -⟩ := heart.tasks
  obtain ⟨d, idle, less⟩ := Task.idleTime_le (List.mem_cons_self : loopTask n ticks ∈ _ :: others) rfl
  rw [idle]
  exact decide_eq_false (Duration.not_lt.mpr (Nat.le_trans less (Nat.le_trans (left_loopTask n ticks) patient)))

/-- The last beat is then still to come. -/
theorem soon {waited : Nat} (heart : Beating m start n waited tasks s) (early : waited ≤ pause n)
    (clock : ticks = ticksUntil n + waited) : ticks < ticksUntil 30 := by
  have next : ticks < ticksUntil (n + 1) := by
    rw [clock, ticksUntil]
    omega
  have few := heart.few
  rw [ticksUntil_succ] at next ⊢
  omega

/-- While there are beats to come, a run of idle detection changes nothing. -/
theorem dispatched (heart : Beating m start n ticks (kept ++ t :: rest) s) (power : t.key = .power)
    (settlement : Settlement) :
    Beating m start n ticks (kept ++ (Entry.survivor? ⟨t, some settlement⟩).toList ++ rest) s := by
  obtain ⟨others, same, only⟩ := heart.tasks
  refine ⟨heart.few, ?_, heart.alive, heart.counted, heart.manager, heart.key, heart.awake⟩
  cases kept with
  | nil =>
    obtain ⟨rfl, -⟩ := List.cons_eq_cons.mp same
    contradiction
  | cons first more =>
    obtain ⟨rfl, rfl⟩ := List.cons_eq_cons.mp same
    exact ⟨_, rfl, only.settled settlement⟩

end Beating

/-- What has been seen by a number of ticks after boot, and the tasks and what they work on: the beats
that have been, and requests for sleep only where the heartbeat is over. -/
inductive Vigil (m : Power.Manager Key Empty) (start : Counters) (ticks : Nat) :
    List Sight → List (Task Key) → SharedState → Prop
  | beating {n waited : Nat} {tasks : List (Task Key)} {s : SharedState} (early : waited ≤ pause n)
      (clock : ticks = ticksUntil n + waited) (heart : Beating m start n waited tasks s) :
      Vigil m start ticks (beats n) tasks s
  | finished {asks : List Sight} {tasks : List (Task Key)} {s : SharedState} (late : ticksUntil 30 ≤ ticks)
      (untimed : ∀ o ∈ asks, o = .asked (some ⟨none⟩)) (ended : Finished start tasks s) :
      Vigil m start ticks (beats 30 ++ asks) tasks s

/-- A run of idle detection asks for sleep only where the heartbeat is over, and for any time then. -/
theorem Vigil.dispatched {seen : List Sight} (vigil : Vigil m start ticks seen (kept ++ t :: rest) s)
    (patient : .ofMillis 1000 ≤ m.config.sleepThreshold) (power : t.key = .power) (uptime : Duration) {p : Pass Key}
    (told : p.idleTime = Task.idleTime (kept ++ t :: rest)) :
    Program.Ensures Pass.registry (Interface.anyone .silent)
      (fun ran after => after = p ∧ Vigil m start ticks (seen ++ Sight.ofRun uptime ⟨t.key, s, ran.2⟩)
        (kept ++ (Entry.survivor? ⟨t, some (.ofRun ran.1)⟩).toList ++ rest) ran.2)
      (SharedState.code t.key s) p := by
  rw [power]
  refine (s.ensures_power p).mono ?_
  rintro ran after ⟨quiet, rfl⟩
  refine ⟨quiet, ?_⟩
  rw [told]
  cases vigil with
  | beating early clock heart =>
    have short := heart.short patient
    rw [← heart.manager] at short
    simp only [short, Bool.false_eq_true, ↓reduceIte]
    have unseen : Sight.ofRun uptime ⟨.power, s, s⟩ = [] := s.askedSince_self
    rw [unseen, List.append_nil]
    exact .beating early clock (heart.dispatched power _)
  | finished late untimed ended =>
    have forever : Task.idleTime (kept ++ t :: rest) = .forever :=
      Task.idleTime_eq_forever_iff.mpr fun u member => (ended.tasks u member).2
    simp only [forever, IdleTime.longerThan, ↓reduceIte]
    have asked := s.askedSince_asked .forever
    have seen (left : SharedState) : Sight.ofRun uptime ⟨.power, s, left⟩ = s.askedSince left := rfl
    rw [seen, asked, List.append_assoc]
    refine .finished late (List.forall_mem_append.mpr ⟨untimed, List.forall_mem_singleton.mpr rfl⟩) ?_
    exact ⟨ended.tasks.settled _, ended.counted, ended.key, fun request same => (Option.some.inj same).symm⟩

/-- The heartbeat beats: another beat is to come a second later, or it was the last one. -/
theorem Beating.beat {waited : Nat} {others : List (Task Key)}
    (heart : Beating m start n waited (loopTask n waited :: others) s) (p : Pass Key) :
    Program.Ensures Pass.registry (Interface.anyone .silent)
      (fun ran after => after = p ∧
        Vigil m start (ticksUntil (n + 1)) (beats n ++ Sight.ofRun (beatTime n) ⟨pulse, s, ran.2⟩)
          ((Entry.survivor? ⟨loopTask n waited, some (.ofRun ran.1)⟩).toList ++ others) ran.2)
      (SharedState.code pulse s) p := by
  obtain ⟨others', same, only⟩ := heart.tasks
  obtain ⟨-, rfl⟩ := List.cons_eq_cons.mp same
  refine (SharedState.ensures_pulse heart.alive p).mono ?_
  rintro ⟨result, left⟩ after ⟨quiet, rfl, manager, sleep, counters, alive⟩
  refine ⟨quiet, ?_⟩
  have seen : beats n ++ Sight.ofRun (beatTime n) ⟨pulse, s, left⟩ = beats (n + 1) := by
    have unasked : s.askedSince left = [] := if_pos (congrArg Power.Manager.requests manager)
    rw [beats_succ, Sight.ofRun, unasked]
    rfl
  have counted : left.counters.heartbeats = start.heartbeats + .ofNat (n + 1) := by
    rw [counters, UInt32.ofNat_add, ← UInt32.add_assoc, ← heart.counted]
    rfl
  have few := heart.few
  have last : 30 ≤ UInt32.ofNat n + 1 ↔ n + 1 = 30 := by
    rw [UInt32.le_iff_toNat_le]
    simp
    omega
  rw [seen]
  by_cases complete : n + 1 = 30
  · simp only [last.mpr complete, ↓reduceIte]
    rw [complete] at counted ⊢
    rw [← List.append_nil (beats 30)]
    refine .finished (Nat.le_refl _) (fun o none => absurd none List.not_mem_nil) ?_
    exact ⟨only, counted, (congrArg (·.key) manager).trans heart.key, fun request same => by
      rw [sleep, heart.awake] at same
      contradiction⟩
  · have again : ¬ 30 ≤ UInt32.ofNat n + 1 := fun limit => complete (last.mp limit)
    simp only [again, ↓reduceIte]
    refine .beating (Nat.zero_le _) rfl ⟨by omega, ⟨others, rfl, only⟩, alive, counted, ?_, ?_, ?_⟩
    · exact manager.trans heart.manager
    · exact (congrArg (·.key) manager).trans heart.key
    · exact sleep.trans heart.awake

/-- A tick in progress: the heartbeat's loop is the first task still to come, or only idle detection is
still to come. -/
inductive Underway (m : Power.Manager Key Empty) (start : Counters) (ticks : Nat) :
    List Sight → List (Task Key) → List (Task Key) → SharedState → Prop
  | first {n waited : Nat} {rest : List (Task Key)} {s : SharedState} (early : waited ≤ pause n)
      (clock : ticks = ticksUntil n + waited + 1) (heart : Beating m start n (waited + 1) rest s) :
      Underway m start ticks (beats n) [] rest s
  | behind {seen : List Sight} {kept rest : List (Task Key)} {s : SharedState} (only : OnlyIdleDetection rest)
      (vigil : Vigil m start ticks seen (kept ++ rest) s) : Underway m start ticks seen kept rest s

namespace Underway

variable {seen : List Sight}

theorem begun (vigil : Vigil m start ticks seen tasks s) :
    Underway m start (ticks + 1) seen [] (tasks.map (·.aged defaultPeriod)) s := by
  cases vigil with
  | beating early clock heart =>
    obtain ⟨others, rfl, only⟩ := heart.tasks
    refine .first early (congrArg (· + 1) clock) { heart with tasks := ⟨others.map (·.aged defaultPeriod), ?_, ?_⟩ }
    · rw [List.map_cons, aged_loopTask]
    · exact only.aged defaultPeriod
  | finished late untimed ended =>
    have only := ended.tasks.aged defaultPeriod
    exact .behind only (.finished (Nat.le_succ_of_le late) untimed { ended with tasks := only })

theorem skipped (underway : Underway m start ticks seen kept (t :: rest) s) (early : t.isDue = false) :
    Underway m start ticks seen (kept ++ [t]) rest s := by
  cases underway with
  | @first n waited rest s within clock heart =>
    obtain ⟨others, same, only⟩ := heart.tasks
    obtain ⟨rfl, rfl⟩ := List.cons_eq_cons.mp same
    rw [isDue_loopTask] at early
    exact .behind only (.beating (Nat.not_lt.mp (of_decide_eq_false early)) clock heart)
  | behind only vigil =>
    rw [List.append_cons] at vigil
    exact .behind (fun u member => only u (List.mem_cons_of_mem t member)) vigil

theorem dispatched (underway : Underway m start ticks seen kept (t :: rest) s)
    (patient : .ofMillis 1000 ≤ m.config.sleepThreshold) (due : t.isDue = true) {p : Pass Key}
    (told : p.idleTime = Task.idleTime (kept ++ t :: rest)) :
    Program.Ensures Pass.registry (Interface.anyone .silent)
      (fun ran after => after = p ∧
        Underway m start ticks (seen ++ Sight.ofRun (.ofMillis (10 * ticks)) ⟨t.key, s, ran.2⟩)
          (kept ++ (Entry.survivor? ⟨t, some (.ofRun ran.1)⟩).toList) rest ran.2)
      (SharedState.code t.key s) p := by
  cases underway with
  | @first n waited rest s early clock heart =>
    obtain ⟨others, same, only⟩ := heart.tasks
    obtain ⟨rfl, rfl⟩ := List.cons_eq_cons.mp same
    -- The loop has waited for just as many ticks as it can without being due.
    rw [isDue_loopTask] at due
    have full : waited = pause n := Nat.le_antisymm early (Nat.lt_succ_iff.mp (of_decide_eq_true due))
    have now : ticks = ticksUntil (n + 1) := by rw [clock, full, ticksUntil]
    refine (heart.beat p).mono ?_
    rintro ran after ⟨quiet, vigil⟩
    rw [now, ← beatTime_eq]
    exact ⟨quiet, .behind only vigil⟩
  | behind only vigil =>
    refine (vigil.dispatched patient (only t List.mem_cons_self).1 (.ofMillis (10 * ticks)) told).mono ?_
    rintro ran after ⟨quiet, vigil⟩
    exact ⟨quiet, .behind (fun u member => only u (List.mem_cons_of_mem t member)) vigil⟩

theorem ended (underway : Underway m start ticks seen tasks [] s) : Vigil m start ticks seen tasks s := by
  cases underway with
  | first early clock heart =>
    obtain ⟨others, none, -⟩ := heart.tasks
    contradiction
  | behind only vigil => rwa [List.append_nil] at vigil

end Underway

/-- A tick of a badge that ticks every ten milliseconds. -/
theorem Vigil.ticked {b : Badge} {seen : List Sight} (vigil : Vigil m start ticks seen b.scheduler.tasks b.shared)
    (patient : .ofMillis 1000 ≤ m.config.sleepThreshold) (active : b.scheduler.active = true)
    (pace : b.scheduler.period = defaultPeriod) (clock : b.scheduler.uptime = .ofMillis (10 * ticks)) :
    ∃ tasks events, b.tick.state.scheduler =
        { b.scheduler with tasks, uptime := .ofMillis (10 * (ticks + 1)), events } ∧
      Vigil m start (ticks + 1) (seen ++ b.seen .tick) tasks b.tick.state.shared := by
  have uptime : b.scheduler.uptime + b.scheduler.period = .ofMillis (10 * (ticks + 1)) := by
    rw [clock, pace, defaultPeriod, Duration.ofMillis_add]
    rfl
  obtain ⟨tasks, events, same, underway⟩ := Scheduler.tick_quiet active SharedState.code b.shared
    (motive := fun done kept rest shared _ =>
      Underway m start (ticks + 1) (seen ++ done.flatMap (Sight.ofRun (.ofMillis (10 * (ticks + 1))))) kept rest shared)
    (by
      rintro done kept t rest shared tally early underway
      exact underway.skipped early)
    (by
      rintro done kept t rest shared tally due underway p told
      refine (underway.dispatched patient due told).mono ?_
      rintro ran after ⟨quiet, underway⟩
      rw [List.append_assoc] at underway
      rw [List.flatMap_append, List.flatMap_singleton]
      exact ⟨quiet, underway⟩)
    (by
      rw [List.flatMap_nil, List.append_nil, Scheduler.aged, pace]
      exact .begun vigil)
  rw [uptime] at same
  refine ⟨tasks, events, same, ?_⟩
  have last : b.tick.state.scheduler.uptime = .ofMillis (10 * (ticks + 1)) := congrArg Scheduler.uptime same
  rw [Badge.seen, last]
  exact underway.ended

/-- The handle that the manager keeps is not the heartbeat's, and neither is the next one to be given out:
a tick leads to one new handle at most, since a button that is pressed again finds the task there. -/
structure Minting (ticks : Nat) (s : Scheduler Key PublishedPeriod) (m : Power.Manager Key Empty) : Prop where
  kept : ∃ handle, m.handle = some handle ∧ handle ≠ .first ∧
    s.nextHandle.id.toNat ≤ ticks + if s.contains handle then 3 else 2
  later : 2 ≤ s.nextHandle.id.toNat

theorem OnlyIdleDetection.of_identity {others : List (Task Key)} (only : OnlyIdleDetection tasks)
    (same : others.map (·.identity) = tasks.map (·.identity)) : OnlyIdleDetection others := by
  intro t member
  have there : t.identity ∈ tasks.map (·.identity) := same ▸ List.mem_map_of_mem member
  obtain ⟨u, known, alike⟩ := List.mem_map.mp there
  simp only [Task.identity, Prod.mk.injEq] at alike
  obtain ⟨key, -, visibility⟩ := alike
  rw [← key, ← visibility]
  exact only u known

theorem OnlyIdleDetection.append_fresh (only : OnlyIdleDetection tasks) (handle : Handle) (target : Duration) :
    OnlyIdleDetection (tasks ++ [.fresh handle .power target .hidden]) :=
  List.forall_mem_append.mpr ⟨only, List.forall_mem_singleton.mpr ⟨rfl, rfl⟩⟩

section
variable {waited : Nat} {scheduler : Scheduler Key PublishedPeriod} {handle : Handle}

/-- Idle detection is put off, and the loop of the heartbeat goes on waiting. -/
theorem Beating.postponed (heart : Beating m start n waited scheduler.tasks s) (other : handle ≠ .first)
    (target : Duration) : Beating m start n waited (scheduler.update handle target).state.tasks s := by
  obtain ⟨others, tasks, only⟩ := heart.tasks
  have unnamed : (loopTask n waited).handle ≠ handle := Ne.symm other
  refine { heart with tasks := ?_ }
  rw [Scheduler.tasks_update, tasks, Scheduler.restartFirst, if_neg unnamed]
  exact ⟨_, rfl, only.of_identity (Scheduler.identity_restartFirst _ _ _)⟩

/-- Idle detection is registered anew, behind the loop of the heartbeat. -/
theorem Beating.armed (heart : Beating m start n waited scheduler.tasks s)
    (vacant : scheduler.tasks.length < scheduler.capacity) (target : Duration) :
    Beating { m with handle := some scheduler.nextHandle } start n waited
      (scheduler.add .power target .hidden).state.tasks
      { s with manager := { m with handle := some scheduler.nextHandle } } := by
  obtain ⟨others, tasks, only⟩ := heart.tasks
  obtain ⟨-, added, -⟩ := Scheduler.add_vacant vacant .power target .hidden
  refine ⟨heart.few, ?_, heart.alive, heart.counted, rfl, heart.manager ▸ heart.key, heart.awake⟩
  rw [added, tasks]
  exact ⟨_, rfl, only.append_fresh _ _⟩

theorem Minting.postponed (minting : Minting ticks scheduler m) (target : Duration) :
    Minting ticks (scheduler.update handle target).state m := by
  obtain ⟨⟨own, kept, other, bound⟩, later⟩ := minting
  have unminted : (scheduler.update handle target).state.nextHandle = scheduler.nextHandle := by
    rw [Scheduler.update]
    split <;> rfl
  have still : (scheduler.update handle target).state.contains own = scheduler.contains own := by
    rw [Bool.eq_iff_iff, Scheduler.contains_iff, Scheduler.contains_iff, Scheduler.tasks_update,
      Scheduler.handles_restartFirst]
  refine ⟨⟨own, kept, other, ?_⟩, ?_⟩
  · rw [unminted, still]
    exact bound
  · rw [unminted]
    exact later

theorem Minting.armed (minting : Minting ticks scheduler m) (few : ticks < ticksUntil 30)
    (gone : ∀ handle, m.handle = some handle → scheduler.contains handle = false)
    (vacant : scheduler.tasks.length < scheduler.capacity) (target : Duration) :
    Minting ticks (scheduler.add .power target .hidden).state { m with handle := some scheduler.nextHandle } := by
  obtain ⟨⟨own, kept, -, bound⟩, later⟩ := minting
  rw [gone own kept, if_neg Bool.false_ne_true] at bound
  rw [ticksUntil_succ] at few
  have next : scheduler.nextHandle.next.id.toNat = scheduler.nextHandle.id.toNat + 1 := by
    apply Handle.toNat_next
    rw [Handle.numbers]
    omega
  have minted : (scheduler.add .power target .hidden).state.nextHandle = scheduler.nextHandle.next := by
    rw [Scheduler.add, if_pos vacant]
  have there : (scheduler.add .power target .hidden).state.contains scheduler.nextHandle = true := by
    rw [Scheduler.contains_iff, (Scheduler.add_vacant vacant .power target .hidden).2.1, List.map_append]
    exact List.mem_append_right _ List.mem_cons_self
  refine ⟨⟨_, rfl, ?_, ?_⟩, ?_⟩
  · intro first
    rw [first] at later
    contradiction
  · rw [minted, there, next]
    simpa using bound
  · rw [minted, next]
    omega

end

/-- An input leaves the loop of the heartbeat as it is. -/
theorem Beating.pressed {b : Badge} {waited : Nat} (heart : Beating m start n waited b.scheduler.tasks b.shared)
    (minting : Minting ticks b.scheduler m) (few : ticks < ticksUntil 30) :
    ∃ now, now.config = m.config ∧
      Beating now start n waited b.press.state.scheduler.tasks b.press.state.shared ∧
      Minting ticks b.press.state.scheduler now := by
  obtain ⟨handle, kept, other, -⟩ := minting.kept
  obtain rfl := heart.manager
  cases there : b.scheduler.contains handle with
  | true =>
    obtain ⟨answer, state⟩ := Power.Manager.run_postpone_armed kept there
    have put : b.press.state = ⟨(b.scheduler.update handle b.shared.manager.config.responseTime).state, b.shared⟩ := by
      simp only [Badge.press, Badge.postpone, answer, state]
    rw [put]
    exact ⟨_, rfl, heart.postponed other _, minting.postponed _⟩
  | false =>
    have gone : ∀ known, b.shared.manager.handle = some known → b.scheduler.contains known = false :=
      fun known same => Option.some.inj (kept.symm.trans same) ▸ there
    obtain ⟨answer, state⟩ := Power.Manager.run_postpone_gone gone
    rw [heart.key] at state
    by_cases vacant : b.scheduler.tasks.length < b.scheduler.capacity
    · rw [if_pos vacant] at answer
      refine ⟨{ b.shared.manager with handle := some b.scheduler.nextHandle }, rfl, ?_⟩
      simp only [Badge.press, Badge.postpone, answer, state]
      exact ⟨heart.armed vacant _, minting.armed few gone vacant _⟩
    · rw [if_neg vacant] at answer
      have full : (b.scheduler.add .power b.shared.manager.config.responseTime .hidden).state = b.scheduler := by
        rw [Scheduler.add, if_neg vacant]
      refine ⟨b.shared.manager, rfl, ?_⟩
      simp only [Badge.press, Badge.postpone, answer, state, full]
      exact ⟨heart, minting⟩

/-- An input leaves nothing but idle detection where that is all there is. -/
theorem Finished.pressed {b : Badge} (ended : Finished start b.scheduler.tasks b.shared) :
    Finished start b.press.state.scheduler.tasks b.press.state.shared := by
  have frame : ∃ handle, b.press.state.shared.manager = { b.shared.manager with handle } :=
    Power.Manager.run_postpone_frame
  obtain ⟨handle, manager⟩ := frame
  refine ⟨?_, ended.counted, (congrArg Power.Manager.key manager).trans ended.key, ended.untimed⟩
  by_cases gone : ∀ handle, b.shared.manager.handle = some handle → b.scheduler.contains handle = false
  · obtain ⟨-, state⟩ := Power.Manager.run_postpone_gone gone
    rw [ended.key] at state
    simp only [Badge.press, Badge.postpone, state, Scheduler.add]
    split
    · exact ended.tasks.append_fresh _ _
    · exact ended.tasks
  · simp only [not_forall, Bool.not_eq_false] at gone
    obtain ⟨own, kept, there⟩ := gone
    obtain ⟨-, state⟩ := Power.Manager.run_postpone_armed kept there
    simp only [Badge.press, Badge.postpone, state, Scheduler.tasks_update]
    exact ended.tasks.of_identity (Scheduler.identity_restartFirst _ _ _)

/-- Where the badge stands so many ticks after boot, with what has been seen since: it ticks every ten
milliseconds until the heartbeat is over, and only a request for sleep that is taken stops it. -/
structure Watch (m : Power.Manager Key Empty) (start : Counters) (ticks : Nat) (seen : List Sight) (b : Badge) :
    Prop where
  vigil : Vigil m start ticks seen b.scheduler.tasks b.shared
  clock : b.scheduler.uptime = .ofMillis (10 * ticks)
  pace : b.scheduler.period = defaultPeriod
  waking : ticks < ticksUntil 30 → b.scheduler.active = true ∧ Minting ticks b.scheduler m

namespace Watch

variable {seen : List Sight} {b : Badge}

theorem booted (period : PublishedPeriod) (start : Counters) (power : Power.Config) :
    Watch (Badge.boot period start power).state.shared.manager start 0 [] (Badge.boot period start power).state := by
  let last := (Badge.boot period start power).state
  have counted : last.shared.counters.heartbeats = start.heartbeats + .ofNat 0 := (UInt32.add_zero _).symm
  have none : OnlyIdleDetection [] := nofun
  have only := none.append_fresh ⟨2⟩ power.responseTime
  have heart : Beating last.shared.manager start 0 0 last.scheduler.tasks last.shared :=
    ⟨by decide, ⟨_, rfl, only⟩, ⟨_, rfl, rfl, rfl⟩, counted, rfl, rfl, rfl⟩
  have next : last.scheduler.nextHandle = ⟨3⟩ := rfl
  have there : last.scheduler.contains ⟨2⟩ = true := rfl
  refine ⟨.beating (Nat.le_refl _) rfl heart, rfl, rfl, fun _ => ⟨rfl, ⟨⟨2⟩, rfl, by decide, ?_⟩, ?_⟩⟩
  · rw [next, there]
    decide
  · rw [next]
    decide

theorem ticked (watch : Watch m start ticks seen b) (patient : .ofMillis 1000 ≤ m.config.sleepThreshold) :
    ∃ later, Watch m start later (seen ++ b.seen .tick) b.tick.state := by
  cases active : b.scheduler.active with
  | false =>
    have unseen : b.seen .tick = [] := by
      rw [Badge.seen, Scheduler.stints, active]
      rfl
    have same : b.tick.state = b := by
      rw [Badge.tick, (b.scheduler.tick_stopped active _ _).1]
    rw [unseen, List.append_nil, same]
    exact ⟨ticks, watch⟩
  | true =>
    obtain ⟨tasks, events, same, vigil⟩ := watch.vigil.ticked patient active watch.pace watch.clock
    refine ⟨ticks + 1, ?_, ?_, ?_, ?_⟩
    · rw [same]
      exact vigil
    · rw [same]
    · rw [same]
      exact watch.pace
    · intro few
      obtain ⟨-, ⟨own, kept, other, bound⟩, later⟩ := watch.waking (Nat.lt_of_succ_lt few)
      rw [same]
      refine ⟨active, ⟨own, kept, other, ?_⟩, later⟩
      show b.scheduler.nextHandle.id.toNat ≤ _
      split at bound <;> split <;> omega

theorem pressed (watch : Watch m start ticks seen b) :
    ∃ now, now.config = m.config ∧ Watch now start ticks (seen ++ b.seen .press) b.press.state := by
  have unseen : b.seen .press = [] := by
    have frame : ∃ handle, b.press.state.shared.manager = { b.shared.manager with handle } :=
      Power.Manager.run_postpone_frame
    obtain ⟨handle, same⟩ := frame
    exact if_pos (congrArg Power.Manager.requests same)
  have pace : b.press.state.scheduler.pace = b.scheduler.pace := Scheduler.pace_run _ _ _ ()
  have uptime : b.press.state.scheduler.uptime = b.scheduler.uptime := Scheduler.uptime_run _ _ _ ()
  have clock := uptime.trans watch.clock
  have period := (Scheduler.period_of_pace pace).trans watch.pace
  rw [unseen, List.append_nil]
  obtain ⟨vigil, -, -, waking⟩ := watch
  cases vigil with
  | beating early now heart =>
    have few := heart.soon early now
    obtain ⟨active, minting⟩ := waking few
    obtain ⟨later, config, heart, minting⟩ := heart.pressed minting few
    exact ⟨later, config, .beating early now heart, clock, period,
      fun _ => ⟨(Scheduler.active_of_pace pace).trans active, minting⟩⟩
  | finished late untimed ended =>
    exact ⟨m, rfl, .finished late untimed ended.pressed, clock, period, fun few => absurd few (Nat.not_lt.mpr late)⟩

theorem slept (watch : Watch m start ticks seen b) :
    Watch m start ticks (seen ++ b.seen .takeSleep) b.takeSleep.state := by
  rw [Badge.seen]
  unfold Badge.takeSleep
  cases asleep : b.shared.sleep with
  | none =>
    rw [b.shared.askedSince_self, List.append_nil]
    exact watch
  | some request =>
    obtain ⟨vigil, clock, pace, -⟩ := watch
    have unseen : b.shared.askedSince { b.shared with sleep := none } = [] := if_pos rfl
    rw [unseen, List.append_nil]
    cases vigil with
    | beating early now heart =>
      rw [heart.awake] at asleep
      contradiction
    | finished late untimed ended =>
      exact ⟨.finished late untimed { ended with untimed := nofun }, clock, pace,
        fun few => absurd few (Nat.not_lt.mpr late)⟩

theorem step (watch : Watch m start ticks seen b) (patient : .ofMillis 1000 ≤ m.config.sleepThreshold)
    (a : Badge.Step) :
    ∃ now later, now.config = m.config ∧ Watch now start later (seen ++ b.seen a) (b.step a) := by
  cases a with
  | tick =>
    obtain ⟨later, after⟩ := watch.ticked patient
    exact ⟨m, later, rfl, after⟩
  | press =>
    obtain ⟨now, config, after⟩ := watch.pressed
    exact ⟨now, ticks, config, after⟩
  | takeSleep => exact ⟨m, ticks, rfl, watch.slept⟩

theorem steps (watch : Watch m start ticks seen b) (patient : .ofMillis 1000 ≤ m.config.sleepThreshold)
    (steps : List Badge.Step) :
    ∃ now later, Watch now start later (seen ++ b.course steps) (b.after steps) := by
  induction steps generalizing m ticks seen b with
  | nil =>
    rw [Badge.course, List.append_nil]
    exact ⟨m, ticks, watch⟩
  | cons a rest ih =>
    obtain ⟨now, later, config, after⟩ := watch.step patient a
    rw [← config] at patient
    rw [Badge.course, ← List.append_assoc]
    exact ih after patient

end Watch

/-- The times of the beats that have come by an uptime. -/
def beatsBy (uptime : Duration) : List Duration := ((List.range 30).map beatTime).filter (· ≤ uptime)

theorem beatTime_le_iff {i : Nat} (few : i < 30) :
    beatTime i ≤ .ofMillis (10 * ticks) ↔ ticksUntil (i + 1) ≤ ticks := by
  rw [beatTime_eq, ticksUntil_succ]
  simp only [Duration.le_iff, Duration.ofMillis, Duration.nanos_ofNanos, Duration.maxNanos]
  omega

theorem beatsBy_eq (few : n ≤ 30) (been : ticksUntil n ≤ ticks) (ahead : n < 30 → ticks < ticksUntil (n + 1)) :
    beatsBy (.ofMillis (10 * ticks)) = (List.range n).map beatTime := by
  have parts : List.range 30 = List.range n ++ (List.range (30 - n)).map (n + ·) := by
    rw [← List.range_add, Nat.add_sub_cancel' few]
  have past : ∀ time ∈ (List.range n).map beatTime, decide (time ≤ .ofMillis (10 * ticks)) = true := by
    intro time member
    obtain ⟨i, before, rfl⟩ := List.mem_map.mp member
    rw [List.mem_range] at before
    rw [decide_eq_true_iff, beatTime_le_iff (by omega), ticksUntil_succ]
    cases n with
    | zero => contradiction
    | succ k =>
      rw [ticksUntil_succ] at been
      omega
  have future : ∀ time ∈ ((List.range (30 - n)).map (n + ·)).map beatTime,
      ¬ decide (time ≤ .ofMillis (10 * ticks)) = true := by
    intro time member
    rw [List.map_map] at member
    obtain ⟨i, behind, rfl⟩ := List.mem_map.mp member
    rw [List.mem_range] at behind
    rw [decide_eq_true_iff, Function.comp_apply, beatTime_le_iff (by omega), ticksUntil_succ]
    have next := ahead (by omega)
    rw [ticksUntil_succ] at next
    omega
  rw [beatsBy, parts, List.map_append, List.filter_append, List.filter_eq_self.mpr past,
    List.filter_eq_nil_iff.mpr future, List.append_nil]

/-- A badge on its board has stayed awake for its heartbeat. The beats whose time has come have been, each
once; only after all thirty of them has it asked for sleep, and each time for sleep without a wake timer.
Until then it ticks, and what it hands out is without a wake timer too. -/
structure AwakeForHeartbeat (start : Counters) (seen : List Sight) (b : Badge) : Prop where
  course : ∃ asks, seen = (beatsBy b.scheduler.uptime).map .beat ++ asks ∧
    (∀ o ∈ asks, o = .asked (some ⟨none⟩)) ∧ (asks ≠ [] → (beatsBy b.scheduler.uptime).length = 30)
  counted : b.shared.counters.heartbeats = start.heartbeats + .ofNat (beatsBy b.scheduler.uptime).length
  ticking : (beatsBy b.scheduler.uptime).length < 30 → b.scheduler.active = true
  untimed : ∀ request, b.takeSleep.answer = some request → request.duration = none

theorem Badge.answer_takeSleep (b : Badge) : b.takeSleep.answer = b.shared.sleep := by
  unfold takeSleep
  split
  · next none => exact none.symm
  · next some => exact some.symm

theorem Watch.awake {seen : List Sight} {b : Badge} (watch : Watch m start ticks seen b) :
    AwakeForHeartbeat start seen b := by
  obtain ⟨vigil, clock, -, waking⟩ := watch
  cases vigil with
  | @beating n waited _ _ early now heart =>
    have few := heart.few
    have times : beatsBy b.scheduler.uptime = (List.range n).map beatTime := by
      rw [clock]
      refine beatsBy_eq (Nat.le_of_lt few) (by omega) fun _ => ?_
      rw [ticksUntil]
      omega
    have length : (beatsBy b.scheduler.uptime).length = n := by rw [times, List.length_map, List.length_range]
    refine ⟨⟨[], ?_, nofun, nofun⟩, ?_, fun _ => (waking (heart.soon early now)).1, ?_⟩
    · rw [times, List.append_nil, List.map_map]
      rfl
    · rw [length]
      exact heart.counted
    · intro request handed
      rw [b.answer_takeSleep, heart.awake] at handed
      contradiction
  | finished late untimed ended =>
    have times : beatsBy b.scheduler.uptime = (List.range 30).map beatTime := by
      rw [clock]
      exact beatsBy_eq (Nat.le_refl _) late fun few => absurd few (Nat.lt_irrefl _)
    have length : (beatsBy b.scheduler.uptime).length = 30 := by rw [times, List.length_map, List.length_range]
    refine ⟨⟨_, ?_, untimed, fun _ => length⟩, ?_, fun few => by omega, ?_⟩
    · rw [times, List.map_map]
      rfl
    · rw [length]
      exact ended.counted
    · intro request handed
      rw [b.answer_takeSleep] at handed
      rw [ended.untimed request handed]

/-- Whatever the response time, a badge on its board that goes to sleep for no less than a second stays
awake for its heartbeat, whatever ticks, inputs and sleep requests that are taken come after boot. -/
theorem awake_for_heartbeat (period : PublishedPeriod) (start : Counters) (power : Power.Config)
    (patient : .ofMillis 1000 ≤ power.sleepThreshold) (steps : List Badge.Step) :
    AwakeForHeartbeat start ((Badge.boot period start power).state.course steps)
      ((Badge.boot period start power).state.after steps) := by
  obtain ⟨now, later, watch⟩ := (Watch.booted period start power).steps patient steps
  exact watch.awake

/-- Two beats and a press between them, with a sleep request asked for in vain. -/
def Badge.twoBeats : List Step := List.replicate 60 .tick ++ [.press] ++ List.replicate 42 .tick ++ [.takeSleep]

/-- Idle detection runs in every tick here, and a second is just not long enough to sleep for. -/
theorem awake_for_heartbeat_twice :
    let power : Power.Config := ⟨.ofMillis 5, .ofMillis 1000⟩
    let booted := (Badge.boot .stopped .zero power).state
    .ofMillis 1000 ≤ power.sleepThreshold ∧
      booted.course Badge.twoBeats = [.beat (.ofMillis 10), .beat (.ofMillis 1020)] ∧
      AwakeForHeartbeat .zero (booted.course Badge.twoBeats) (booted.after Badge.twoBeats) :=
  ⟨by decide, by decide +kernel,
    awake_for_heartbeat .stopped .zero ⟨.ofMillis 5, .ofMillis 1000⟩ (by decide) Badge.twoBeats⟩

end Board
end ConferenceBadge
