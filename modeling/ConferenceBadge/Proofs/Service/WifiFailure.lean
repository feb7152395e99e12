import ConferenceBadge.Proofs.Service.Attempts
import Mathlib.Data.List.Chain

/-!
Wifi that fails while services are started. The attempt to connect is the last call for its app
(`Called.Proper`). From then on nobody tries to connect or to set the clock, and the apps that need either
are skipped (`Attempt.WithoutWifi`), however the network answers.
-/
namespace ConferenceBadge.Service

variable {κ σ ω ψ : Type} {handler : Handler (World σ) ω} {config : Config} {hostDraws failed : Bool} {w after : ω}

namespace Called

/-- Every attempt to connect comes directly after wifi was found missing. -/
structure Led (calls : List (Called σ ω)) : Prop where
  opening : ∀ c ∈ calls.head?, c.connects = false
  chain : calls.IsChain fun last next => next.connects = true → last.findsNoWifi = true

/-- Calls in their places: an attempt to connect that fails is the last of them, and `lost` tells whether there is
one. -/
structure Proper (calls : List (Called σ ω)) (lost : Bool) : Prop extends Led calls where
  ending : calls.Pairwise fun earlier _ => earlier.failsToConnect = false
  fails : calls.any failsToConnect = lost

theorem failsToConnect_of_connects {c : Called σ ω} (no : c.connects = false) : c.failsToConnect = false := by
  obtain ⟨call, before, answer⟩ := c
  cases call with
  | connect => contradiction
  | _ => rfl

theorem Led.nil : Led ([] : List (Called σ ω)) := ⟨fun _ none => by contradiction, .nil⟩

theorem Led.cons {c : Called σ ω} {rest : List (Called σ ω)} (still : c.connects = false) (led : Led rest) :
    Led (c :: rest) := by
  refine ⟨?_, List.isChain_cons.mpr ⟨fun next head connects => ?_, led.chain⟩⟩
  · rintro c ⟨⟩
    exact still
  · rw [led.opening next head] at connects
    contradiction

theorem Led.append {first second : List (Called σ ω)} (before : Led first) (more : Led second) :
    Led (first ++ second) := by
  refine ⟨?_, List.isChain_append.mpr ⟨before.chain, more.chain, fun last _ next head connects => ?_⟩⟩
  · cases first with
    | nil => exact more.opening
    | cons c rest => exact before.opening
  · rw [more.opening next head] at connects
    contradiction

theorem Proper.of_still {calls : List (Called σ ω)} (still : ∀ c ∈ calls, c.connects = false) : Proper calls false := by
  induction calls with
  | nil => exact ⟨.nil, .nil, rfl⟩
  | cons c rest ih =>
    obtain ⟨led, ending, fails⟩ := ih fun c member => still c (List.mem_cons_of_mem _ member)
    have first := still c List.mem_cons_self
    refine ⟨led.cons first, List.pairwise_cons.mpr ⟨fun _ _ => failsToConnect_of_connects first, ending⟩, ?_⟩
    rw [List.any_cons, failsToConnect_of_connects first, fails, Bool.false_or]

/-- Calls behind others of which none fails to connect. -/
theorem Proper.append {first second : List (Called σ ω)} {lost : Bool} (before : Proper first false)
    (more : Proper second lost) : Proper (first ++ second) lost := by
  refine ⟨before.toLed.append more.toLed,
    List.pairwise_append.mpr ⟨before.ending, more.ending, fun c member _ _ => ?_⟩, ?_⟩
  · simpa using List.any_eq_false.mp before.fails c member
  · rw [List.any_append, before.fails, more.fails, Bool.false_or]

end Called

open Called

theorem BringsUp.proper {calls : List (Called σ ω)} {up : Bool} (brings : BringsUp handler w calls up after) :
    Proper calls !up := by
  cases brings with
  | there found => exact .of_still (by simp [Handler.called, connects])
  | asked down left told =>
    refine ⟨⟨?_, .cons_cons (fun _ => ?_) (.singleton _)⟩, List.pairwise_pair.mpr rfl, ?_⟩
    · rintro c ⟨⟩
      rfl
    · show (!(handler .connected w).answer) = true
      rw [down]
      rfl
    · show (false || (!(handler .connect _).answer || false)) = _
      rw [told, Bool.or_false, Bool.false_or]

theorem SeeksWifi.proper {manifest : Manifest} {calls : List (Called σ ω)} {result : Except StartError Unit}
    (seeks : SeeksWifi handler manifest failed w calls result after) : Proper calls (losesWifi result) := by
  cases seeks with
  | unneeded idle => exact .of_still (by simp)
  | givenUp needed before => exact .of_still (by simp)
  | brought needed first brings => exact brings.proper
  | refused needed first brings => exact brings.proper

theorem SeeksClock.still {manifest : Manifest} {calls : List (Called σ ω)} {result : Except StartError Unit}
    (clocks : SeeksClock handler config manifest failed w calls result after) :
    (∀ c ∈ calls, c.connects = false) ∧ losesWifi result = false := by
  cases clocks with
  | unneeded idle => simp [losesWifi]
  | valid needed shown => simp [Handler.called, connects, losesWifi]
  | givenUp needed shown before => simp [Handler.called, connects, losesWifi]
  | synced needed shown first left => simp [Handler.called, connects, losesWifi]

theorem proper_loadCalls (name : AppName) : Proper (loadCalls handler name w) false :=
  .of_still (by simp [loadCalls, Handler.called, connects])

/-- What a service's own setup comes to is no lack of wifi. -/
theorem Slot.losesWifi_made (name : AppName) (manifest : Manifest) (draws : Bool) (answer : Except Error Unit × σ) :
    losesWifi (Slot.made name manifest draws answer) = false := by
  obtain ⟨result, service⟩ := answer
  cases result <;> rfl

theorem Readying.proper {name : AppName} {calls : List (Called σ ω)} {ready : Except StartError (Slot σ)}
    (readying : Readying handler config name hostDraws failed w calls ready after) :
    Proper calls (losesWifi ready) := by
  cases readying with
  | unread bad =>
    rcases Config.read_error bad with ⟨e, rfl⟩ | ⟨e, rfl⟩ <;> exact .of_still (by simp [Handler.called, connects])
  | unloaded read left bad => exact proper_loadCalls name
  | wifiless loads seeks => exact (proper_loadCalls name).append seeks.proper
  | clockless loads seeks clocks =>
    obtain ⟨still, result⟩ := clocks.still
    show Proper _ (losesWifi (Except.error _ : Except StartError Unit))
    rw [result]
    exact ((proper_loadCalls name).append seeks.proper).append (.of_still still)
  | setUp loads seeks clocks =>
    rw [Slot.losesWifi_made]
    exact (((proper_loadCalls name).append seeks.proper).append (.of_still clocks.still.1)).append
      (.of_still (by simp [Handler.called, connects]))

/-- Looking at an app makes calls in their places, the last of which fails to connect if wifi is lost. -/
theorem Looking.proper {r between : Roster σ} {index : Nat} {a : Attempt σ ω}
    (looking : Looking handler hostDraws failed r index w a between after) : Proper a.calls a.losesWifi := by
  have named : Proper [handler.called (.name index) w] false := .of_still (by simp [Handler.called, connects])
  cases looking with
  | nameless none => exact named
  | skipped _ readying placed =>
    cases placed with
    | skipped reason => exact named.append readying.proper
    | full slot taken => exact named.append readying.proper
  | started _ readying placed =>
    cases placed with
    | enlisted slot room loopTask drawList => exact named.append readying.proper

/-- What holds of an attempt once wifi has failed for an app before: nobody tries to connect or to set the clock,
an app that needs wifi is skipped, and so is an app that needs the clock, unless that was read and is set. -/
structure Attempt.WithoutWifi (config : Config) (a : Attempt σ ω) : Prop where
  still : ∀ c ∈ a.calls, c.connects = false ∧ c.setsClock = false
  wifi : ∀ manifest, a.manifest? = some manifest → manifest.needsWifi = true → a.Skipped
  clock : ∀ manifest, a.manifest? = some manifest → manifest.needsClock = true →
    a.Skipped ∨ ∃ time, a.times = [time] ∧ config.clockValidFrom ≤ time

theorem SeeksWifi.withoutWifi {manifest : Manifest} {calls : List (Called σ ω)} {result : Except StartError Unit}
    (seeks : SeeksWifi handler manifest true w calls result after) :
    calls = [] ∧ (result = .ok () → manifest.needsWifi = false) := by
  cases seeks with
  | unneeded idle => exact ⟨rfl, fun _ => idle⟩
  | givenUp needed before => exact ⟨rfl, fun wrong => by contradiction⟩
  | brought needed first brings => contradiction
  | refused needed first brings => contradiction

theorem SeeksClock.withoutWifi {manifest : Manifest} {calls : List (Called σ ω)} {result : Except StartError Unit}
    (clocks : SeeksClock handler config manifest true w calls result after) :
    (∀ c ∈ calls, c.connects = false ∧ c.setsClock = false) ∧
      (result = .ok () → manifest.needsClock = true →
        ∃ time, calls.filterMap time? = [time] ∧ config.clockValidFrom ≤ time) := by
  cases clocks with
  | unneeded idle => simp [idle]
  | valid needed shown => exact ⟨by simp [Handler.called, connects, setsClock], fun _ _ => ⟨_, rfl, shown⟩⟩
  | givenUp needed shown before =>
    exact ⟨by simp [Handler.called, connects, setsClock], fun wrong => by contradiction⟩
  | synced needed shown first left => contradiction

theorem Readying.withoutWifi {name : AppName} {calls : List (Called σ ω)} {ready : Except StartError (Slot σ)}
    (readying : Readying handler config name hostDraws true w calls ready after) :
    (∀ c ∈ calls, c.connects = false ∧ c.setsClock = false) ∧
      (((∃ reason, ready = .error reason) ∧ ∀ c ∈ calls, c.setsUp = false) ∨
        ∃ manifest, calls.findSome? Called.manifest? = some manifest ∧ manifest.needsWifi = false ∧
          (manifest.needsClock = true → ∃ time, calls.filterMap time? = [time] ∧ config.clockValidFrom ≤ time)) := by
  have still : ∀ c ∈ loadCalls handler name w, connects c = false ∧ setsClock c = false := by
    simp [loadCalls, Handler.called, connects, setsClock]
  have early := loadCalls_early handler name w
  cases readying with
  | unread bad => simp [Handler.called, connects, setsClock, setsUp]
  | unloaded read left bad => exact ⟨still, .inl ⟨⟨_, rfl⟩, early⟩⟩
  | wifiless loads seeks =>
    obtain ⟨rfl, -⟩ := seeks.withoutWifi
    rw [List.append_nil]
    exact ⟨still, .inl ⟨⟨_, rfl⟩, early⟩⟩
  | clockless loads seeks clocks =>
    obtain ⟨rfl, -⟩ := seeks.withoutWifi
    obtain ⟨later, -⟩ := clocks.withoutWifi
    rw [List.append_nil]
    exact ⟨List.forall_mem_append.mpr ⟨still, later⟩, .inl ⟨⟨_, rfl⟩, List.forall_mem_append.mpr ⟨early, clocks.early⟩⟩⟩
  | @setUp manifest service _ _ _ _ clock loads seeks clocks =>
    obtain ⟨rfl, unneeded⟩ := seeks.withoutWifi
    obtain ⟨later, shown⟩ := clocks.withoutWifi
    rw [List.append_nil, List.append_assoc]
    refine ⟨List.forall_mem_append.mpr ⟨still, List.forall_mem_append.mpr ⟨later, ?_⟩⟩,
      .inr ⟨manifest, loads.manifest? _, unneeded rfl, fun needed => ?_⟩⟩
    · simp [Handler.called, connects, setsClock]
    · obtain ⟨time, once, valid⟩ := shown rfl needed
      refine ⟨time, ?_, valid⟩
      rw [← once, List.filterMap_append, List.filterMap_append]
      exact List.append_nil _

/-- An attempt without wifi skips its app, or its app needs no wifi and finds the clock set. -/
theorem Attempt.WithoutWifi.of_outcome {a : Attempt σ ω}
    (still : ∀ c ∈ a.calls, c.connects = false ∧ c.setsClock = false)
    (outcome : a.Skipped ∨ ∃ manifest, a.manifest? = some manifest ∧ manifest.needsWifi = false ∧
      (manifest.needsClock = true → ∃ time, a.times = [time] ∧ config.clockValidFrom ≤ time)) :
    a.WithoutWifi config := by
  rcases outcome with skipped | ⟨manifest, read, unneeded, shown⟩
  · exact ⟨still, fun _ _ _ => skipped, fun _ _ _ => .inl skipped⟩
  · refine ⟨still, fun other same needed => ?_, fun other same needed => ?_⟩
    · obtain rfl := Option.some.inj (read.symm.trans same)
      rw [unneeded] at needed
      contradiction
    · obtain rfl := Option.some.inj (read.symm.trans same)
      exact .inr (shown needed)

/-- Once wifi has failed it is not sought again. -/
theorem Looking.withoutWifi {r between : Roster σ} {index : Nat} {a : Attempt σ ω}
    (looking : Looking handler hostDraws true r index w a between after) : a.WithoutWifi r.config := by
  have named : connects (handler.called (.name index) w) = false ∧ setsClock (handler.called (.name index) w) = false :=
    ⟨rfl, rfl⟩
  cases looking with
  | nameless none =>
    exact .of_outcome (List.forall_mem_singleton.mpr named) (.inl ⟨⟨_, rfl⟩, List.forall_mem_singleton.mpr rfl⟩)
  | skipped _ readying placed =>
    obtain ⟨still, outcome⟩ := readying.withoutWifi
    refine .of_outcome (List.forall_mem_cons.mpr ⟨named, still⟩) (outcome.imp ?_ id)
    rintro ⟨-, early⟩
    exact ⟨⟨_, rfl⟩, List.forall_mem_cons.mpr ⟨rfl, early⟩⟩
  | started _ readying placed =>
    obtain ⟨still, outcome⟩ := readying.withoutWifi
    refine .of_outcome (List.forall_mem_cons.mpr ⟨named, still⟩) (.inr (outcome.resolve_left ?_))
    rintro ⟨⟨reason, rfl⟩, -⟩
    cases placed

/-- Nor is it in any attempt that follows. -/
theorem LookingAll.withoutWifi {r last : Roster σ} {indices : List Nat} {attempts : List (Attempt σ ω)}
    (looking : LookingAll handler hostDraws indices failed r w attempts last after) (lost : failed = true) :
    ∀ a ∈ attempts, a.WithoutWifi r.config := by
  induction looking with
  | done failed r w => exact fun a none => absurd none List.not_mem_nil
  | next first known others ih =>
    subst lost
    have config := first.config
    exact List.forall_mem_cons.mpr ⟨first.withoutWifi, config ▸ ih (known.trans (Bool.true_or _))⟩

/-- The calls are in their places, attempt by attempt. -/
theorem LookingAll.led {r last : Roster σ} {indices : List Nat} {attempts : List (Attempt σ ω)}
    (looking : LookingAll handler hostDraws indices failed r w attempts last after) :
    (∀ a ∈ attempts, Proper a.calls a.losesWifi) ∧ Led (attempts.flatMap (·.calls)) := by
  induction looking with
  | done failed r w => exact ⟨fun a none => absurd none List.not_mem_nil, .nil⟩
  | next first known others ih =>
    exact ⟨List.forall_mem_cons.mpr ⟨first.proper, ih.1⟩, first.proper.toLed.append ih.2⟩

/-- An attempt that fails to connect leaves the later ones without wifi. -/
theorem LookingAll.sticks {r last : Roster σ} {indices : List Nat} {attempts : List (Attempt σ ω)}
    (looking : LookingAll handler hostDraws indices failed r w attempts last after) :
    attempts.Pairwise fun earlier later => earlier.calls.any failsToConnect = true → later.WithoutWifi r.config := by
  induction looking with
  | done failed r w => exact .nil
  | next first known others ih =>
    have config := first.config
    refine List.pairwise_cons.mpr ⟨fun later member lost => ?_, config ▸ ih⟩
    rw [first.proper.fails] at lost
    exact config ▸ others.withoutWifi (known.trans (by rw [lost, Bool.or_true])) later member

/-- What excludes itself from then on occurs at most once. -/
theorem countP_le_one {α : Type} {p : α → Bool} {l : List α}
    (apart : l.Pairwise fun earlier later => p earlier = true → p later = false) : l.countP p ≤ 1 := by
  induction l with
  | nil => exact Nat.zero_le 1
  | cons a rest ih =>
    obtain ⟨first, others⟩ := List.pairwise_cons.mp apart
    rw [List.countP_cons]
    split
    · next occurs =>
      have none : rest.countP p = 0 := List.countP_eq_zero.mpr fun b member => by simp [first b member occurs]
      omega
    · exact ih others

namespace Roster

/-- Wifi that fails is final while services are started, whatever the store, the network, the registry and the
services do. The calls are made app by app, and the slots go to the apps whose services are started. At most one
attempt to connect fails; after it nobody tries to connect or to set the clock. Every attempt to connect comes
directly after wifi was found missing. An app that comes after the failure is skipped if it needs wifi, and also if
it needs the clock, unless that was read and is set. -/
theorem wifi_failure_is_final (registry : Registry κ ψ) (handler : Handler (World σ) ω) (r : Roster σ)
    (key : TaskKey → κ) (hostDraws : Bool) (s : ψ) (w : ω) :
    let calls : List (Called σ ω) := (r.startInstalled key hostDraws).calls registry handler s w
    let attempts := r.installing registry handler key hostDraws s w
    let last := ((r.startInstalled key hostDraws).run registry handler s w).answer.2
    (calls = handler.called .count w :: attempts.flatMap (·.calls) ∧
      last.slots.map (·.name) = r.slots.map (·.name) ++ attempts.filterMap (·.report.toOption)) ∧
    calls.countP Called.failsToConnect ≤ 1 ∧
    (calls.Pairwise fun earlier later => earlier.failsToConnect = true →
      later.connects = false ∧ later.setsClock = false) ∧
    (calls.IsChain fun last next => next.connects = true → last.findsNoWifi = true) ∧
    attempts.Pairwise fun earlier later => earlier.calls.any Called.failsToConnect = true →
      later.WithoutWifi r.config := by
  intro calls attempts last
  obtain ⟨split, roster, looking, drawingTask, same⟩ := ends_startInstalled registry handler s w r key hostDraws
  obtain ⟨proper, led⟩ := looking.led
  have sticks := looking.sticks
  have split : calls = handler.called .count w :: attempts.flatMap (·.calls) := split
  have same : last = { roster with drawingTask } := same
  have apart : calls.Pairwise fun earlier later => earlier.failsToConnect = true →
      later.connects = false ∧ later.setsClock = false := by
    rw [split]
    refine List.pairwise_cons.mpr ⟨fun _ _ fails => by contradiction, ?_⟩
    refine List.pairwise_flatMap.mpr ⟨fun a member => ?_, ?_⟩
    · refine (proper a member).ending.imp fun sound fails => ?_
      rw [sound] at fails
      contradiction
    · exact sticks.imp fun lost c member d there fails => (lost (List.any_eq_true.mpr ⟨c, member, fails⟩)).still d there
  refine ⟨⟨split, ?_⟩, countP_le_one (apart.imp fun after fails => ?_), apart, ?_, sticks⟩
  · rw [same]
    exact looking.slots
  · exact failsToConnect_of_connects (after fails).1
  · rw [split]
    exact (led.cons rfl).chain

/-- Four apps without a network: the first needs wifi from the start, the second in its loop, the third nothing, and
the last a clock, which is not set. How often it was tried to connect is counted. -/
def fourApps : Handler (World Unit) Nat
  | .count, w => ⟨.ok 4, w, []⟩
  | .name index, w => ⟨AppName.ofString? (["first", "second", "offline", "clock"].getD index ""), w, []⟩
  | .manifest app _, w =>
    let inLoop := if app.text = "second" then some true else none
    ⟨.ok (Manifest.needing (app.text = "first") inLoop (app.text = "clock")), w, []⟩
  | .service _, w => ⟨.ok (), w, []⟩
  | .connect, w => ⟨false, w + 1, []⟩
  | .connected, w | .setClock, w => ⟨false, w, []⟩
  | .time, w | .height, w => ⟨0, w, []⟩
  | .setUp _, w => ⟨(.ok (), ()), w, []⟩
  | .loop _, w => ⟨(.ok .remove, ()), w, []⟩
  | .draw _ _, w => ⟨(.error .notProvided, ()), w, []⟩
  | .beginDrawing, w | .endDrawing, w => ⟨(), w, []⟩

/-- The first app loses wifi, and of the others only the one that needs nothing is started. -/
theorem wifi_failure_is_final_fourApps :
    let r : Roster Unit := empty 8 .standard
    let calls : List (Called Unit Nat) :=
      (r.startInstalled Key.service false).calls Scheduler.registry fourApps almostFull 0
    let attempts := r.installing Scheduler.registry fourApps Key.service false almostFull 0
    let started := (r.startInstalled Key.service false).run Scheduler.registry fourApps almostFull 0
    (attempts.map (·.losesWifi) = [true, false, false, false] ∧ started.state.2 = 1 ∧
        calls.any Called.setsClock = false ∧ started.answer.2.slots.map (·.name.text) = ["offline"]) ∧
      calls.countP Called.failsToConnect ≤ 1 := by
  intro r calls attempts started
  obtain ⟨-, once, -, -, -⟩ :=
    wifi_failure_is_final Scheduler.registry fourApps (empty 8 .standard) Key.service false almostFull 0
  exact ⟨by decide +kernel, once⟩

end Roster
end ConferenceBadge.Service
