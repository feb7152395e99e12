import ConferenceBadge.Proofs.Calls
import ConferenceBadge.Proofs.Service.Registered

/-!
What is called for an app while services are started. Bringing up wifi, setting the clock and making a
service ready can go in a few ways each (`BringsUp`, `SeeksWifi`, `SeeksClock`, `Readying`), and so can
looking at one app (`Looking`). Starting the installed services is one such attempt after the other
(`Roster.installing`), and these make its calls (`Roster.ends_startInstalled`). This holds for every
store, network, registry and service.
-/
namespace ConferenceBadge

/-- The text of a manifest that wants a loop, and needs wifi and the clock as told; of wifi in the loop it may say
nothing. -/
def Manifest.needing (setup : Bool) (loop : Option Bool) (clock : Bool) : String :=
  let inLoop := loop.elim "" fun needed => ", \"loop\": " ++ toString needed
  "\x7b\"apiVersion\": 2, \"wifi\": \x7b\"setup\": " ++ toString setup ++ inLoop ++ "\x7d, \"rtc\": " ++
    toString clock ++ ", \"loop\": true, \"draw\": false\x7d"

namespace Service

variable {κ σ ω ψ : Type}

/-- A call that was made while services were started or run. -/
abbrev Called (σ ω : Type) : Type := (World σ).Called ω

namespace Called

/-- An attempt to connect. -/
def connects : Called σ ω → Bool
  | ⟨.connect, _, _⟩ => true
  | _ => false

/-- An attempt to connect that failed. -/
def failsToConnect : Called σ ω → Bool
  | ⟨.connect, _, up⟩ => !up
  | _ => false

/-- Wifi was asked about and was not there. -/
def findsNoWifi : Called σ ω → Bool
  | ⟨.connected, _, up⟩ => !up
  | _ => false

/-- An attempt to set the clock. -/
def setsClock : Called σ ω → Bool
  | ⟨.setClock, _, _⟩ => true
  | _ => false

/-- An attempt to set the clock that failed. -/
def failsToSetClock : Called σ ω → Bool
  | ⟨.setClock, _, set⟩ => !set
  | _ => false

/-- The time that the clock showed. -/
def time? : Called σ ω → Option Nat
  | ⟨.time, _, time⟩ => some time
  | _ => none

/-- The manifest that was read. -/
def manifest? : Called σ ω → Option Manifest
  | ⟨.manifest _ _, _, .ok text⟩ => (Manifest.parse text).toOption
  | _ => none

/-- The service that was found. -/
def service? : Called σ ω → Option σ
  | ⟨.service _, _, .ok service⟩ => some service
  | _ => none

/-- A service's own setup. -/
def setsUp : Called σ ω → Bool
  | ⟨.setUp _, _, _⟩ => true
  | _ => false

end Called

/-- The manifest that an answer of the store is read as, if it is one for this API version. -/
def Config.read (config : Config) : Except StorageError String → Except StartError Manifest
  | .error e => .error (.noManifest e)
  | .ok text =>
    match Manifest.parse text with
    | .error e => .error (.manifest e)
    | .ok manifest =>
      match manifest.checkVersion config.apiVersion with
      | .error e => .error (.manifest e)
      | .ok () => .ok manifest

/-- A manifest that is accepted is what its text is read as. -/
theorem Config.read_ok {config : Config} {answer : Except StorageError String} {manifest : Manifest}
    (read : config.read answer = .ok manifest) : ∃ text, answer = .ok text ∧ Manifest.parse text = .ok manifest := by
  cases answer with
  | error e => contradiction
  | ok text =>
    refine ⟨text, rfl, ?_⟩
    simp only [Config.read] at read
    cases parsed : Manifest.parse text with
    | error e =>
      rw [parsed] at read
      contradiction
    | ok other =>
      simp only [parsed] at read
      split at read
      · contradiction
      · rw [Except.ok.inj read]

/-- A manifest is refused because it is not there, or for what it says. -/
theorem Config.read_error {config : Config} {answer : Except StorageError String} {reason : StartError}
    (bad : config.read answer = .error reason) : (∃ e, reason = .noManifest e) ∨ ∃ e, reason = .manifest e := by
  cases answer with
  | error e => exact .inl ⟨e, (Except.error.inj bad).symm⟩
  | ok text =>
    right
    simp only [Config.read] at bad
    split at bad
    · exact ⟨_, (Except.error.inj bad).symm⟩
    · split at bad
      · exact ⟨_, (Except.error.inj bad).symm⟩
      · contradiction

section Relations

variable (handler : Handler (World σ) ω)

/-- How wifi is brought up: the calls, whether it is there in the end, and what they leave. -/
inductive BringsUp (w : ω) : List (Called σ ω) → Bool → ω → Prop
  | there (up : (handler .connected w).answer = true) :
      BringsUp w [handler.called .connected w] true (handler .connected w).state
  | asked {found : ω} {up : Bool} (down : (handler .connected w).answer = false)
      (left : found = (handler .connected w).state) (told : (handler .connect found).answer = up) :
      BringsUp w [handler.called .connected w, handler.called .connect found] up (handler .connect found).state

/-- How it is seen to that wifi is there for an app; `failed` if it was not for one before. -/
inductive SeeksWifi (manifest : Manifest) (failed : Bool) (w : ω) :
    List (Called σ ω) → Except StartError Unit → ω → Prop
  | unneeded (idle : manifest.needsWifi = false) : SeeksWifi manifest failed w [] (.ok ()) w
  | givenUp (needed : manifest.needsWifi = true) (before : failed = true) :
      SeeksWifi manifest failed w [] (.error .wifiFailedEarlier) w
  | brought {calls : List (Called σ ω)} {after : ω} (needed : manifest.needsWifi = true) (first : failed = false)
      (brings : BringsUp handler w calls true after) : SeeksWifi manifest failed w calls (.ok ()) after
  | refused {calls : List (Called σ ω)} {after : ω} (needed : manifest.needsWifi = true) (first : failed = false)
      (brings : BringsUp handler w calls false after) :
      SeeksWifi manifest failed w calls (.error .wifiUnavailable) after

/-- How it is seen to that the clock is set for an app. -/
inductive SeeksClock (config : Config) (manifest : Manifest) (failed : Bool) (w : ω) :
    List (Called σ ω) → Except StartError Unit → ω → Prop
  | unneeded (idle : manifest.needsClock = false) : SeeksClock config manifest failed w [] (.ok ()) w
  | valid (needed : manifest.needsClock = true) (shown : config.clockValidFrom ≤ (handler .time w).answer) :
      SeeksClock config manifest failed w [handler.called .time w] (.ok ()) (handler .time w).state
  | givenUp (needed : manifest.needsClock = true) (shown : (handler .time w).answer < config.clockValidFrom)
      (before : failed = true) :
      SeeksClock config manifest failed w [handler.called .time w] (.error .clockUnavailable) (handler .time w).state
  | synced {found : ω} (needed : manifest.needsClock = true)
      (shown : (handler .time w).answer < config.clockValidFrom) (first : failed = false)
      (left : found = (handler .time w).state) :
      SeeksClock config manifest failed w [handler.called .time w, handler.called .setClock found] (.ok ())
        (handler .setClock found).state

/-- An app has a manifest that is accepted, and a service. -/
structure Loads (config : Config) (name : AppName) (w : ω) (manifest : Manifest) (service : σ) (after : ω) :
    Prop where
  read : config.read (handler (.manifest name longestManifest) w).answer = .ok manifest
  found : (handler (.service name) (handler (.manifest name longestManifest) w).state).answer = .ok service
  left : after = (handler (.service name) (handler (.manifest name longestManifest) w).state).state

/-- The calls that ask for an app's manifest and service. -/
def loadCalls (name : AppName) (w : ω) : List (Called σ ω) :=
  [handler.called (.manifest name longestManifest) w,
    handler.called (.service name) (handler (.manifest name longestManifest) w).state]

/-- What a service's own setup comes to. -/
def Slot.made (name : AppName) (manifest : Manifest) (hostDraws : Bool) :
    Except Error Unit × σ → Except StartError (Slot σ)
  | (.error e, _) => .error (.setupFailed e)
  | (.ok (), service) => .ok { name, manifest, service, loopTask := none, draws := manifest.wantsDraw && hostDraws }

/-- How making an app's service ready can go. -/
inductive Readying (config : Config) (name : AppName) (hostDraws failed : Bool) (w : ω) :
    List (Called σ ω) → Except StartError (Slot σ) → ω → Prop
  | unread {reason : StartError}
      (bad : config.read (handler (.manifest name longestManifest) w).answer = .error reason) :
      Readying config name hostDraws failed w [handler.called (.manifest name longestManifest) w] (.error reason)
        (handler (.manifest name longestManifest) w).state
  | unloaded {manifest : Manifest} {e : StorageError} {found : ω}
      (read : config.read (handler (.manifest name longestManifest) w).answer = .ok manifest)
      (left : found = (handler (.manifest name longestManifest) w).state)
      (bad : (handler (.service name) found).answer = .error e) :
      Readying config name hostDraws failed w (loadCalls handler name w) (.error (.noService e))
        (handler (.service name) found).state
  | wifiless {manifest : Manifest} {service : σ} {found after : ω} {wifi : List (Called σ ω)} {reason : StartError}
      (loads : Loads handler config name w manifest service found)
      (seeks : SeeksWifi handler manifest failed found wifi (.error reason) after) :
      Readying config name hostDraws failed w (loadCalls handler name w ++ wifi) (.error reason) after
  | clockless {manifest : Manifest} {service : σ} {found between after : ω} {wifi clock : List (Called σ ω)}
      {reason : StartError} (loads : Loads handler config name w manifest service found)
      (seeks : SeeksWifi handler manifest failed found wifi (.ok ()) between)
      (clocks : SeeksClock handler config manifest failed between clock (.error reason) after) :
      Readying config name hostDraws failed w (loadCalls handler name w ++ wifi ++ clock) (.error reason) after
  | setUp {manifest : Manifest} {service : σ} {found between after : ω} {wifi clock : List (Called σ ω)}
      (loads : Loads handler config name w manifest service found)
      (seeks : SeeksWifi handler manifest failed found wifi (.ok ()) between)
      (clocks : SeeksClock handler config manifest failed between clock (.ok ()) after) :
      Readying config name hostDraws failed w
        (loadCalls handler name w ++ wifi ++ clock ++ [handler.called (.setUp service) after])
        (Slot.made name manifest hostDraws (handler (.setUp service) after).answer)
        (handler (.setUp service) after).state

/-- What becomes of a service that is ready, or is not: it gets the next slot if there is one. -/
inductive Placed (r : Roster σ) : Except StartError (Slot σ) → Except StartError (Roster σ) → Prop
  | skipped (reason : StartError) : Placed r (.error reason) (.error reason)
  | full (slot : Slot σ) (taken : r.hasRoom = false) : Placed r (.ok slot) (.error .noSlot)
  | enlisted (slot : Slot σ) (room : r.hasRoom = true) (loopTask : Option Handle) (drawList : List Nat) :
      Placed r (.ok slot) (.ok { r with slots := r.slots ++ [{ slot with loopTask }], drawList })

end Relations

/-- Wifi was sought, and was not to be had. -/
def losesWifi {α : Type} : Except StartError α → Bool
  | .error reason => reason = .wifiUnavailable
  | .ok _ => false

/-- An app that was looked at: its name if its service was started, otherwise why it was skipped, and the
calls that were made for it. -/
structure Attempt (σ ω : Type) where
  report : Except StartError AppName
  calls : List (Called σ ω)

namespace Attempt

/-- Wifi was sought for the app, and was not to be had. -/
def losesWifi (a : Attempt σ ω) : Bool := Service.losesWifi a.report

/-- The manifest that was read for the app. -/
def manifest? (a : Attempt σ ω) : Option Manifest := a.calls.findSome? Called.manifest?

/-- The service that was found for the app. -/
def service? (a : Attempt σ ω) : Option σ := a.calls.findSome? Called.service?

/-- What the clock showed when it was asked for the app. -/
def times (a : Attempt σ ω) : List Nat := a.calls.filterMap Called.time?

/-- The app was skipped before its service's own setup. -/
def Skipped (a : Attempt σ ω) : Prop := (∃ reason, a.report = .error reason) ∧ ∀ c ∈ a.calls, c.setsUp = false

/-- Whenever a service is set up it is the one of the app, and `met` holds of the app's manifest and of what is there
at that moment. -/
def SetsUpWithin (met : Manifest → ω → Prop) (a : Attempt σ ω) : Prop :=
  ∀ c ∈ a.calls, ∀ service, c.call = .setUp service →
    a.service? = some service ∧ ∃ manifest, a.manifest? = some manifest ∧ met manifest c.before

end Attempt

/-- How looking at one app can go. -/
inductive Looking (handler : Handler (World σ) ω) (hostDraws failed : Bool) (r : Roster σ) (index : Nat) (w : ω) :
    Attempt σ ω → Roster σ → ω → Prop
  | nameless (none : (handler (.name index) w).answer = none) :
      Looking handler hostDraws failed r index w ⟨.error .nameUnreadable, [handler.called (.name index) w]⟩ r
        (handler (.name index) w).state
  | skipped {name : AppName} {calls : List (Called σ ω)} {ready : Except StartError (Slot σ)} {reason : StartError}
      {after : ω} (named : (handler (.name index) w).answer = some name)
      (readying : Readying handler r.config name hostDraws failed (handler (.name index) w).state calls ready after)
      (placed : Placed r ready (.error reason)) :
      Looking handler hostDraws failed r index w ⟨.error reason, handler.called (.name index) w :: calls⟩ r after
  | started {name : AppName} {calls : List (Called σ ω)} {ready : Except StartError (Slot σ)} {last : Roster σ}
      {after : ω} (named : (handler (.name index) w).answer = some name)
      (readying : Readying handler r.config name hostDraws failed (handler (.name index) w).state calls ready after)
      (placed : Placed r ready (.ok last)) :
      Looking handler hostDraws failed r index w ⟨.ok name, handler.called (.name index) w :: calls⟩ last after

/-- Looking at one app after the other: the attempts, and the roster and the surroundings after them. -/
inductive LookingAll (handler : Handler (World σ) ω) (hostDraws : Bool) :
    List Nat → Bool → Roster σ → ω → List (Attempt σ ω) → Roster σ → ω → Prop
  | done (failed : Bool) (r : Roster σ) (w : ω) : LookingAll handler hostDraws [] failed r w [] r w
  | next {index : Nat} {rest : List Nat} {failed lost : Bool} {r between last : Roster σ} {w found after : ω}
      {a : Attempt σ ω} {attempts : List (Attempt σ ω)}
      (first : Looking handler hostDraws failed r index w a between found) (known : lost = (failed || a.losesWifi))
      (others : LookingAll handler hostDraws rest lost between found attempts last after) :
      LookingAll handler hostDraws (index :: rest) failed r w (a :: attempts) last after

/-- A service that gets a slot leaves the rules. -/
theorem Placed.config {r last : Roster σ} {ready : Except StartError (Slot σ)} (placed : Placed r ready (.ok last)) :
    last.config = r.config := by
  cases placed with
  | enlisted slot room loopTask drawList => rfl

section Ends

variable {registry : Registry κ ψ} {handler : Handler (World σ) ω} {s : ψ} {w : ω}

@[simp] theorem Work.ends_log {level : Log.Level} {text : String} {post : List (Called σ ω) → Unit → ψ → ω → Prop} :
    Program.Ends registry handler post (Work.log level text) s w ↔ post [] () s w := Iff.rfl

theorem Work.ends_bringUpWifi :
    Program.Ends registry handler (fun calls up s' w' => s' = s ∧ BringsUp handler w calls up w')
      Work.bringUpWifi s w := by
  simp only [Work.bringUpWifi, Work.on, Program.ends_bind, Program.ends_call, Program.ends_done]
  cases up : (handler .connected w).answer with
  | true => exact ⟨rfl, .there up⟩
  | false => exact ⟨rfl, .asked up rfl rfl⟩

namespace Roster

theorem ends_requireWifi (manifest : Manifest) (failed : Bool) :
    Program.Ends registry handler
      (fun calls result s' w' => s' = s ∧ SeeksWifi handler manifest failed w calls result w')
      (requireWifi (κ := κ) (σ := σ) manifest failed) s w := by
  unfold requireWifi
  cases needed : manifest.needsWifi with
  | false => exact ⟨rfl, .unneeded needed⟩
  | true =>
    cases failed with
    | true => exact ⟨rfl, .givenUp needed rfl⟩
    | false =>
      simp only [↓reduceIte, Bool.false_eq_true, Program.ends_bind]
      refine Work.ends_bringUpWifi.mono ?_
      rintro calls up s' w' ⟨rfl, brings⟩
      cases up with
      | true => exact ⟨rfl, (List.append_nil calls).symm ▸ .brought needed rfl brings⟩
      | false => exact ⟨rfl, (List.append_nil calls).symm ▸ .refused needed rfl brings⟩

theorem ends_requireClock (r : Roster σ) (name : AppName) (manifest : Manifest) (failed : Bool) :
    Program.Ends registry handler
      (fun calls result s' w' => s' = s ∧ SeeksClock handler r.config manifest failed w calls result w')
      (r.requireClock name manifest failed) s w := by
  unfold requireClock
  cases needed : manifest.needsClock with
  | false => exact ⟨rfl, .unneeded needed⟩
  | true =>
    simp only [↓reduceIte, Program.ends_bind, Work.on, Program.ends_call, Program.ends_done]
    by_cases shown : (handler .time w).answer < r.config.clockValidFrom
    · rw [if_pos shown]
      cases failed with
      | true => exact ⟨rfl, .givenUp needed shown rfl⟩
      | false =>
        simp only [Bool.false_eq_true, ↓reduceIte, Program.ends_bind, Work.ends_log, Program.ends_call,
          Program.ends_done]
        split <;> exact ⟨rfl, .synced needed shown rfl rfl⟩
    · rw [if_neg shown]
      exact ⟨rfl, .valid needed (Nat.le_of_not_lt shown)⟩

theorem ends_manifestOf (r : Roster σ) (name : AppName) :
    Program.Ends registry handler
      (fun calls result s' w' => s' = s ∧ calls = [handler.called (.manifest name longestManifest) w] ∧
        result = r.config.read (handler (.manifest name longestManifest) w).answer ∧
        w' = (handler (.manifest name longestManifest) w).state)
      (r.manifestOf name) s w := by
  simp only [manifestOf, Program.ends_bind, Work.on, Program.ends_call, Program.ends_done]
  cases (handler (.manifest name longestManifest) w).answer with
  | error e => exact ⟨rfl, rfl, rfl, rfl⟩
  | ok text =>
    simp only [Config.read]
    cases Manifest.parse text with
    | error e =>
      simp only [Program.ends_noting]
      exact ⟨rfl, rfl, rfl, rfl⟩
    | ok manifest =>
      simp only
      cases manifest.checkVersion r.config.apiVersion <;> exact ⟨rfl, rfl, rfl, rfl⟩

/-- Making a service ready goes in one of these ways, and asks the registry for nothing. -/
theorem ends_ready (r : Roster σ) (name : AppName) (hostDraws failed : Bool) :
    Program.Ends registry handler
      (fun calls result s' w' => s' = s ∧ Readying handler r.config name hostDraws failed w calls result w')
      (r.ready name hostDraws failed) s w := by
  simp only [ready, Program.ends_bind]
  refine (ends_manifestOf r name).mono ?_
  rintro _ answer _ _ ⟨rfl, rfl, read, rfl⟩
  cases answer with
  | error e => exact ⟨rfl, .unread read.symm⟩
  | ok manifest =>
    simp only [Program.ends_bind, Work.on, Program.ends_call, Program.ends_done]
    cases found : (handler (.service name) (handler (.manifest name longestManifest) w).state).answer with
    | error e => exact ⟨rfl, .unloaded read.symm rfl found⟩
    | ok service =>
      have loads : Loads handler r.config name w manifest service _ := ⟨read.symm, found, rfl⟩
      simp only [Program.ends_bind]
      refine (ends_requireWifi manifest failed).mono ?_
      rintro wifi result _ between ⟨rfl, seeks⟩
      cases result with
      | error e => exact ⟨rfl, (List.append_nil wifi).symm ▸ .wifiless loads seeks⟩
      | ok _ =>
        simp only [Program.ends_bind]
        refine (ends_requireClock r name manifest failed).mono ?_
        rintro clock result _ after ⟨rfl, clocks⟩
        cases result with
        | error e =>
          simp only [Program.ends_pure, List.append_nil, ← List.append_assoc]
          exact ⟨trivial, .clockless loads seeks clocks⟩
        | ok _ =>
          have way : Readying handler r.config name hostDraws failed w _ _ _ := .setUp loads seeks clocks
          simp only [Program.ends_bind, Program.ends_call, Program.ends_done]
          generalize (handler (.setUp service) after).answer = answer at way ⊢
          obtain ⟨result, last⟩ := answer
          cases result <;> exact ⟨rfl, by simpa [loadCalls] using! way⟩

theorem only_registerLoop (key : TaskKey → κ) (number : Nat) (slot : Slot σ) :
    Program.Only (fun _ => False) (registerLoop key number slot) := by
  unfold registerLoop
  split
  · refine .bind (Program.only_add.mpr trivial) fun answer => ?_
    cases answer <;> exact trivial
  · trivial

theorem only_enlist (r : Roster σ) (key : TaskKey → κ) (slot : Slot σ) :
    Program.Only (fun _ => False) (r.enlist key slot) := by
  unfold enlist
  refine .bind (only_registerLoop key _ slot) fun loopTask => ?_
  simp only
  split
  · split <;> exact trivial
  · trivial

theorem only_registerDraw (r : Roster σ) (key : TaskKey → κ) (hostDraws : Bool) :
    Program.Only (fun _ => False) (r.registerDraw key hostDraws) := by
  unfold registerDraw
  split
  · trivial
  · refine .bind (Program.only_add.mpr trivial) fun answer => ?_
    cases answer <;> exact trivial

/-- Enlisting a service adds a slot, and leaves the rest but for the draw list. -/
theorem ends_enlist (r : Roster σ) (key : TaskKey → κ) (slot : Slot σ) :
    Program.Ends registry handler
      (fun calls last _ w' => calls = [] ∧ w' = w ∧ ∃ loopTask drawList,
        last = { r with slots := r.slots ++ [{ slot with loopTask }], drawList })
      (r.enlist key slot) s w := by
  obtain ⟨calls, left⟩ := (only_enlist r key slot).silent registry handler s w
  have grown : Program.Ensures registry (Interface.anyone (World σ)) (fun last _ => ∃ loopTask drawList,
      last = { r with slots := r.slots ++ [{ slot with loopTask }], drawList }) (r.enlist key slot) s := by
    simp only [enlist, Program.ensures_bind]
    have any : Program.Ensures registry (Interface.anyone (World σ)) (fun _ _ => True)
        (registerLoop key r.slots.length slot) s := .of_always (fun _ _ => trivial) _ _
    refine any.mono fun loopTask s _ => ?_
    split
    · split <;> exact ⟨loopTask, _, rfl⟩
    · exact ⟨loopTask, _, rfl⟩
  exact ⟨calls, left, Program.ensures_run grown (Interface.anyone_kept handler) w⟩

/-- Starting a service makes it ready and then gives it a slot. Where it is not started, nothing was asked of
the registry. -/
theorem ends_start (registry : Registry κ ψ) (handler : Handler (World σ) ω) (s : ψ) (w : ω) (r : Roster σ)
    (key : TaskKey → κ) (name : AppName) (hostDraws failed : Bool) :
    Program.Ends registry handler
      (fun calls result s' w' => (∃ ready, Readying handler r.config name hostDraws failed w calls ready w' ∧
        Placed r ready result) ∧ ∀ reason, result = .error reason → s' = s)
      (r.start key name hostDraws failed) s w := by
  simp only [start, Program.ends_bind]
  refine (ends_ready r name hostDraws failed).mono ?_
  rintro calls ready _ after ⟨rfl, readying⟩
  cases ready with
  | error e =>
    simp only [Program.ends_pure, List.append_nil]
    exact ⟨⟨_, readying, .skipped e⟩, fun _ _ => trivial⟩
  | ok slot =>
    simp only
    cases room : r.hasRoom with
    | false =>
      simp only [Bool.false_eq_true, ↓reduceIte, Program.ends_pure, List.append_nil]
      exact ⟨⟨_, readying, .full slot room⟩, fun _ _ => trivial⟩
    | true =>
      simp only [↓reduceIte, Program.ends_bind, Program.ends_pure]
      refine (ends_enlist r key slot).mono ?_
      rintro _ last s' _ ⟨rfl, rfl, loopTask, drawList, rfl⟩
      simp only [List.append_nil]
      exact ⟨⟨_, readying, .enlisted slot room loopTask drawList⟩, fun _ wrong => by contradiction⟩

/-- Starting a service leaves the rules. -/
theorem start_config (registry : Registry κ ψ) (handler : Handler (World σ) ω) (s : ψ) (w : ω) (r : Roster σ)
    (key : TaskKey → κ) (name : AppName) (hostDraws failed : Bool) :
    ∀ last, ((r.start key name hostDraws failed).run registry handler s w).answer = .ok last →
      last.config = r.config := by
  intro last started
  obtain ⟨⟨ready, readying, placed⟩, -⟩ := ends_start registry handler s w r key name hostDraws failed
  rw [started] at placed
  exact placed.config

variable (registry handler) in
/-- The attempts to start the services of the apps with these numbers. -/
def attempts (key : TaskKey → κ) (hostDraws : Bool) : List Nat → Bool → Roster σ → ψ → ω → List (Attempt σ ω)
  | [], _, _, _, _ => []
  | index :: rest, failed, r, s, w =>
    let named := handler.called (.name index) w
    let asked := handler (.name index) w
    match asked.answer with
    | none => ⟨.error .nameUnreadable, [named]⟩ :: attempts key hostDraws rest failed r s asked.state
    | some name =>
      let start := r.start key name hostDraws failed
      let calls := named :: start.calls registry handler s asked.state
      let started := start.run registry handler s asked.state
      let (s, w) := started.state
      match started.answer with
      | .ok last => ⟨.ok name, calls⟩ :: attempts key hostDraws rest failed last s w
      | .error reason =>
        ⟨.error reason, calls⟩ :: attempts key hostDraws rest (failed || reason = .wifiUnavailable) r s w

/-- Starting the services of apps is one attempt after the other. -/
theorem ends_startAll (key : TaskKey → κ) (hostDraws : Bool) (indices : List Nat) (failed : Bool) (r : Roster σ) :
    Program.Ends registry handler
      (fun calls last _ w' => calls = (attempts registry handler key hostDraws indices failed r s w).flatMap (·.calls) ∧
        LookingAll handler hostDraws indices failed r w (attempts registry handler key hostDraws indices failed r s w)
          last w')
      (startAll key hostDraws indices failed r) s w := by
  induction indices generalizing failed r s w with
  | nil => exact ⟨rfl, .done failed r w⟩
  | cons index rest ih =>
    simp only [startAll, Program.ends_bind, Work.on, Program.ends_call, Program.ends_done, attempts]
    cases named : (handler (.name index) w).answer with
    | none =>
      simp only [Program.ends_bind, Work.ends_log]
      refine (ih failed r).mono ?_
      rintro calls last s' w' ⟨rfl, others⟩
      exact ⟨rfl, .next (.nameless named) (Bool.or_false failed).symm others⟩
    | some name =>
      have start := ends_start registry handler s (handler (.name index) w).state r key name hostDraws failed
      simp only [Program.ends_bind]
      rw [Program.Ends] at start ⊢
      generalize (r.start key name hostDraws failed).run registry handler s (handler (.name index) w).state = ran
        at start ⊢
      obtain ⟨result, ⟨s', found⟩, _⟩ := ran
      obtain ⟨⟨ready, readying, placed⟩, -⟩ := start
      cases result with
      | ok last =>
        simp only [Program.ends_bind, Work.ends_log]
        refine (ih failed last).mono ?_
        rintro calls final _ after ⟨rfl, others⟩
        exact ⟨rfl, .next (.started named readying placed) (Bool.or_false failed).symm others⟩
      | error reason =>
        simp only [Program.ends_bind, Work.ends_log]
        refine (ih _ r).mono ?_
        rintro calls final _ after ⟨rfl, others⟩
        exact ⟨rfl, .next (.skipped named readying placed) rfl others⟩

variable (registry handler) in
/-- The attempts to start the services of the installed apps. -/
def installing (r : Roster σ) (key : TaskKey → κ) (hostDraws : Bool) (s : ψ) (w : ω) : List (Attempt σ ω) :=
  attempts registry handler key hostDraws (installed handler w) false r s (handler .count w).state

/-- Starting the installed services asks how many apps there are, and is then one attempt after the other. -/
theorem ends_startInstalled (registry : Registry κ ψ) (handler : Handler (World σ) ω) (s : ψ) (w : ω) (r : Roster σ)
    (key : TaskKey → κ) (hostDraws : Bool) :
    Program.Ends registry handler
      (fun calls (ran : Bool × Roster σ) _ w' =>
        calls = handler.called .count w :: (r.installing registry handler key hostDraws s w).flatMap (·.calls) ∧
        ∃ last, LookingAll handler hostDraws (installed handler w) false r (handler .count w).state
          (r.installing registry handler key hostDraws s w) last w' ∧
          ∃ drawingTask, ran.2 = { last with drawingTask })
      (r.startInstalled key hostDraws) s w := by
  simp only [startInstalled, Program.ends_bind, Work.on, Program.ends_call, Program.ends_done, installing, installed]
  cases (handler .count w).answer with
  | error e => exact ⟨rfl, r, .done false r _, r.drawingTask, rfl⟩
  | ok count =>
    simp only [Program.ends_bind]
    refine (ends_startAll key hostDraws (List.range count) false r).mono ?_
    rintro _ last s' after ⟨rfl, looking⟩
    obtain ⟨silent, left⟩ := (only_registerDraw last key hostDraws).silent registry handler s' after
    rw [Program.Ends, silent, left]
    have drawn : Program.Ensures registry (Interface.anyone (World σ)) (fun (ran : Bool × Roster σ) _ =>
        ∃ drawingTask, ran.2 = { last with drawingTask }) (last.registerDraw key hostDraws) s' := by
      unfold registerDraw
      split
      · exact ⟨_, rfl⟩
      · simp only [Program.ensures_bind, Program.ensures_add]
        split <;> exact ⟨_, rfl⟩
    exact ⟨congrArg (_ :: ·) (List.append_nil _), last, looking,
      Program.ensures_run drawn (Interface.anyone_kept handler) after⟩

end Roster
end Ends

section
variable {handler : Handler (World σ) ω} {config : Config} {name : AppName} {hostDraws failed : Bool} {w after : ω}
  {calls : List (Called σ ω)} {manifest : Manifest} {result : Except StartError Unit}

theorem loadCalls_early (handler : Handler (World σ) ω) (name : AppName) (w : ω) :
    ∀ c ∈ loadCalls handler name w, Called.setsUp c = false := by
  simp [loadCalls, Handler.called, Called.setsUp]

theorem SeeksWifi.early (seeks : SeeksWifi handler manifest failed w calls result after) :
    ∀ c ∈ calls, c.setsUp = false := by
  have early {up : Bool} (brings : BringsUp handler w calls up after) : ∀ c ∈ calls, c.setsUp = false := by
    cases brings <;> simp [Handler.called, Called.setsUp]
  cases seeks with
  | unneeded idle => simp
  | givenUp needed before => simp
  | brought needed first brings => exact early brings
  | refused needed first brings => exact early brings

theorem SeeksClock.early (clocks : SeeksClock handler config manifest failed w calls result after) :
    ∀ c ∈ calls, c.setsUp = false := by
  cases clocks <;> simp [Handler.called, Called.setsUp]

/-- The manifest that is accepted for an app is the one that was read for it. -/
theorem Loads.manifest? {service : σ} (loads : Loads handler config name w manifest service after)
    (more : List (Called σ ω)) : (loadCalls handler name w ++ more).findSome? Called.manifest? = some manifest := by
  obtain ⟨text, answer, parsed⟩ := config.read_ok loads.read
  have first : Called.manifest? (handler.called (.manifest name longestManifest) w) = some manifest := by
    simp only [Handler.called, Called.manifest?, answer, parsed, Except.toOption]
  rw [loadCalls, List.cons_append, List.findSome?_cons, first]

theorem Loads.service? {service : σ} (loads : Loads handler config name w manifest service after)
    (more : List (Called σ ω)) : (loadCalls handler name w ++ more).findSome? Called.service? = some service := by
  simp [loadCalls, Handler.called, List.findSome?_cons, Called.service?, loads.found]

theorem Called.setsUp_iff {c : Called σ ω} : c.setsUp = true ↔ ∃ service, c.call = .setUp service := by
  obtain ⟨call, before, answer⟩ := c
  cases call <;> simp [Called.setsUp]

/-- What comes before a service's own setup: its app's manifest and service, wifi and the clock, if it needs them. -/
theorem Readying.before_setUp {ready : Except StartError (Slot σ)}
    (readying : Readying handler config name hostDraws failed w calls ready after) {c : Called σ ω} (member : c ∈ calls)
    {service : σ} (call : c.call = .setUp service) :
    ∃ manifest found connected clocked wifi clock,
      Loads handler config name w manifest service found ∧
      SeeksWifi handler manifest failed found wifi (.ok ()) connected ∧
      SeeksClock handler config manifest failed connected clock (.ok ()) clocked ∧
      c = handler.called (.setUp service) clocked ∧ calls = loadCalls handler name w ++ (wifi ++ clock ++ [c]) := by
  have late := Called.setsUp_iff.mpr ⟨service, call⟩
  -- All calls but the last of a setup come too early to be it.
  have impossible {before : List (Called σ ω)} (early : ∀ c ∈ before, c.setsUp = false)
      (member : c ∈ before) : False := by
    rw [early c member] at late
    contradiction
  have loading := loadCalls_early handler name w
  cases readying with
  | unread bad =>
    rw [List.mem_singleton.mp member] at late
    contradiction
  | unloaded read left bad => exact (impossible loading member).elim
  | wifiless loads seeks => exact (impossible (List.forall_mem_append.mpr ⟨loading, seeks.early⟩) member).elim
  | clockless loads seeks clocks =>
    exact (impossible (List.forall_mem_append.mpr ⟨List.forall_mem_append.mpr ⟨loading, seeks.early⟩, clocks.early⟩)
      member).elim
  | @setUp manifest other found connected clocked wifi clock loads seeks clocks =>
    rcases List.mem_append.mp member with before | last
    · exact (impossible (List.forall_mem_append.mpr ⟨List.forall_mem_append.mpr ⟨loading, seeks.early⟩, clocks.early⟩)
        before).elim
    · obtain rfl := List.mem_singleton.mp last
      obtain rfl : other = service := Call.setUp.inj call
      exact ⟨manifest, found, connected, _, wifi, clock, loads, seeks, clocks, rfl, by simp⟩

/-- A service that is ready goes by the name of its app, and by the manifest that the store has for that. -/
theorem Readying.made {slot : Slot σ}
    (readying : Readying handler config name hostDraws failed w calls (.ok slot) after) :
    slot.name = name ∧ ∃ text, (handler (.manifest name longestManifest) w).answer = .ok text ∧
      Manifest.parse text = .ok slot.manifest := by
  generalize result : Except.ok slot = ready at readying
  cases readying with
  | unread bad => contradiction
  | unloaded read left bad => contradiction
  | wifiless loads seeks => contradiction
  | clockless loads seeks clocks => contradiction
  | setUp loads seeks clocks =>
    simp only [Slot.made] at result
    split at result
    · contradiction
    · obtain rfl := Except.ok.inj result
      exact ⟨rfl, config.read_ok loads.read⟩

end

/-- Whenever a service is set up while an app is looked at, the manifest and the service are those of the app, and
wifi and the clock were seen to. -/
theorem Looking.setsUpWithin {handler : Handler (World σ) ω} {hostDraws failed : Bool} {r between : Roster σ}
    {index : Nat} {w after : ω} {a : Attempt σ ω} {met : Manifest → ω → Prop}
    (looking : Looking handler hostDraws failed r index w a between after)
    (ready : ∀ manifest found connected clocked wifi clock,
      SeeksWifi handler manifest failed found wifi (.ok ()) connected →
      SeeksClock handler r.config manifest failed connected clock (.ok ()) clocked → clock ⊆ a.calls →
        met manifest clocked) :
    a.SetsUpWithin met := by
  intro c member service call
  have late := Called.setsUp_iff.mpr ⟨service, call⟩
  have setUp {name : AppName} {calls : List (Called σ ω)} {result : Except StartError (Slot σ)}
      (readying : Readying handler r.config name hostDraws failed (handler (.name index) w).state calls result after)
      (same : a.calls = handler.called (.name index) w :: calls) :
      a.service? = some service ∧ ∃ manifest, a.manifest? = some manifest ∧ met manifest c.before := by
    rw [same] at member
    rcases List.mem_cons.mp member with rfl | member
    · contradiction
    · obtain ⟨manifest, found, connected, clocked, wifi, clock, loads, seeks, clocks, rfl, split⟩ :=
        readying.before_setUp member call
      have made : clock ⊆ a.calls := by
        rw [same, split]
        intro c member
        simp [member]
      rw [Attempt.service?, Attempt.manifest?, same, split]
      exact ⟨loads.service? _, manifest, loads.manifest? _, ready _ _ _ _ _ _ seeks clocks made⟩
  cases looking with
  | nameless none =>
    obtain rfl := List.mem_singleton.mp member
    contradiction
  | skipped named readying placed => exact setUp readying rfl
  | started named readying placed => exact setUp readying rfl

/-- The rules stay as they are. -/
theorem Looking.config {handler : Handler (World σ) ω} {hostDraws failed : Bool} {r between : Roster σ} {index : Nat}
    {w after : ω} {a : Attempt σ ω} (looking : Looking handler hostDraws failed r index w a between after) :
    between.config = r.config := by
  cases looking with
  | nameless none => rfl
  | skipped named readying placed => rfl
  | started named readying placed => exact placed.config

/-- The slots hold the apps whose services were started, behind those that were there. -/
theorem LookingAll.slots {handler : Handler (World σ) ω} {hostDraws failed : Bool} {indices : List Nat}
    {r last : Roster σ} {w after : ω} {attempts : List (Attempt σ ω)}
    (looking : LookingAll handler hostDraws indices failed r w attempts last after) :
    last.slots.map (·.name) = r.slots.map (·.name) ++ attempts.filterMap (·.report.toOption) := by
  induction looking with
  | done failed r w => exact (List.append_nil _).symm
  | next first known others ih =>
    cases first with
    | nameless none => exact ih
    | skipped named readying placed => exact ih
    | started named readying placed =>
      cases placed with
      | enlisted slot room loopTask drawList =>
        refine ih.trans ?_
        simp [readying.made.1, Except.toOption]

/-- Whenever a service is set up while apps are looked at, wifi and the clock were seen to for it. -/
theorem LookingAll.setsUpWithin {handler : Handler (World σ) ω} {hostDraws failed : Bool} {indices : List Nat}
    {r last : Roster σ} {w after : ω} {attempts : List (Attempt σ ω)} {met : Attempt σ ω → Manifest → ω → Prop}
    (looking : LookingAll handler hostDraws indices failed r w attempts last after)
    (ready : ∀ a manifest found connected clocked failed wifi clock,
      SeeksWifi handler manifest failed found wifi (.ok ()) connected →
      SeeksClock handler r.config manifest failed connected clock (.ok ()) clocked → clock ⊆ a.calls →
        met a manifest clocked) :
    ∀ a ∈ attempts, a.SetsUpWithin (met a) := by
  induction looking with
  | done failed r w => exact fun a none => absurd none List.not_mem_nil
  | next first known others ih =>
    refine List.forall_mem_cons.mpr ⟨first.setsUpWithin fun manifest found connected clocked wifi clock =>
      ready _ manifest found connected clocked _ wifi clock, ih ?_⟩
    rw [first.config]
    exact ready

end Service
end ConferenceBadge
