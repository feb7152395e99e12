import ConferenceBadge.Proofs.Service.Attempts

/-!
Apps that are broken by themselves: those whose name, manifest or service the store does not have in order
(`Store.fault?`). Where reading and loading one app does not affect the others (`Store.Separate`), starting the
services goes the same with such apps as without them. Two runs are compared app by app (`Agree`): an app that both
stores have is looked at alike in both, and a broken one leaves nothing behind.
-/
namespace ConferenceBadge.Service

variable {κ σ ς ν ψ α β : Type}

/-- A store of apps, with services of kind `σ` and a state of its own. Only reading a manifest and loading a service
may change the state. -/
structure Store (σ ς : Type) where
  count : ς → Except StorageError Nat
  name : Nat → ς → Option AppName
  manifest : AppName → Nat → ς → Reply ς (Except StorageError String)
  service : AppName → ς → Reply ς (Except StorageError σ)

/-- What may be asked for of one app: its manifest, of so many bytes at most, or its service. -/
inductive Access where
  | manifest (limit : Nat)
  | service

/-- What an access gives. -/
inductive Given (σ : Type) where
  | manifest (text : Except StorageError String)
  | service (service : Except StorageError σ)

/-- One reason or the other to skip an app for what the store has of it. -/
def StartError.blamesApp : StartError → Bool
  | .nameUnreadable | .noManifest _ | .manifest _ | .noService _ => true
  | .wifiUnavailable | .wifiFailedEarlier | .clockUnavailable | .setupFailed _ | .noSlot => false

/-- The reason to skip an app, if it is one of the app. -/
def StartError.blamed? : Except StartError α → Option StartError
  | .error reason => if reason.blamesApp then some reason else none
  | .ok _ => none

theorem StartError.blamed?_eq_some {report : Except StartError α} {reason : StartError}
    (blamed : blamed? report = some reason) : report = .error reason := by
  cases report with
  | ok a => contradiction
  | error other =>
    simp only [blamed?] at blamed
    split at blamed
    · rw [Option.some.inj blamed]
    · contradiction

/-- Wifi is no fault of an app. -/
theorem StartError.blamesApp_wifi {reason : StartError} (blamed : reason.blamesApp = true) :
    decide (reason = .wifiUnavailable) = false := by
  cases reason with
  | wifiUnavailable => contradiction
  | _ => rfl

namespace Store

variable (store : Store σ ς)

/-- Reads or loads an app. -/
def access (app : AppName) : Access → ς → Reply ς (Given σ)
  | .manifest limit, a =>
    let read := store.manifest app limit a
    ⟨.manifest read.answer, read.state, read.log⟩
  | .service, a =>
    let loaded := store.service app a
    ⟨.service loaded.answer, loaded.state, loaded.log⟩

/-- What reading and loading an app gives, one access after the other. -/
def offers (app : AppName) : List Access → ς → List (Given σ)
  | [], _ => []
  | x :: rest, a => (store.access app x a).answer :: offers app rest (store.access app x a).state

/-- The store has the same of an app in both states, however it is read and loaded. -/
def Same (app : AppName) (a b : ς) : Prop := ∀ accesses, store.offers app accesses a = store.offers app accesses b

/-- Reading and loading one app changes neither what the store has of the others, nor its list of apps. -/
structure Separate : Prop where
  others : ∀ app other, other ≠ app → ∀ x a, store.Same other (store.access app x a).state a
  name : ∀ app x a index, store.name index (store.access app x a).state = store.name index a

/-- The list of apps, with the names that can be read. -/
def list (a : ς) : Except StorageError (List (Option AppName)) :=
  (store.count a).map fun count => (List.range count).map (store.name · a)

/-- Why an app is skipped for what the store has of it: its name, its manifest or its service. -/
def fault? (config : Config) (a : ς) : Option AppName → Option StartError
  | none => some .nameUnreadable
  | some app =>
    let read := store.manifest app longestManifest a
    match config.read read.answer with
    | .error reason => some reason
    | .ok _ =>
      match (store.service app read.state).answer with
      | .error e => some (.noService e)
      | .ok _ => none

/-- The store answers for itself, and others for the rest: the network, the services and the display. -/
def among (others : Handler (World σ) ν) : Handler (World σ) (ς × ν)
  | .count, w => ⟨store.count w.1, w, []⟩
  | .name index, w => ⟨store.name index w.1, w, []⟩
  | .manifest app limit, w =>
    let read := store.manifest app limit w.1
    ⟨read.answer, (read.state, w.2), read.log⟩
  | .service app, w =>
    let loaded := store.service app w.1
    ⟨loaded.answer, (loaded.state, w.2), loaded.log⟩
  | c, w =>
    let r := others c w.2
    ⟨r.answer, (w.1, r.state), r.log⟩

end Store

/-- A call that is not for the store, with what it found besides the store. -/
def Called.outside? (c : Called σ (ς × ν)) : Option (Called σ ν) :=
  match c.call with
  | .count | .name _ | .manifest _ _ | .service _ => none
  | _ => some ⟨c.call, c.before.2, c.answer⟩

/-- The second list is the first without some elements, all of which are as `p` says. -/
inductive Without (p : α → Prop) : List α → List α → Prop
  | nil : Without p [] []
  | kept (a : α) {l rest : List α} (others : Without p l rest) : Without p (a :: l) (a :: rest)
  | dropped {a : α} (is : p a) {l rest : List α} (others : Without p l rest) : Without p (a :: l) rest

namespace Store

variable {store : Store σ ς} {app : AppName} {a b : ς}

theorem Same.symm (same : store.Same app a b) : store.Same app b a := fun accesses => (same accesses).symm

theorem Same.trans {c : ς} (first : store.Same app a b) (second : store.Same app b c) : store.Same app a c :=
  fun accesses => (first accesses).trans (second accesses)

/-- An access gives the same wherever the store has the same, and leaves the same. -/
theorem Same.access (same : store.Same app a b) (x : Access) :
    (store.access app x a).answer = (store.access app x b).answer ∧
      store.Same app (store.access app x a).state (store.access app x b).state := by
  have split (rest : List Access) := List.cons.inj (same (x :: rest))
  exact ⟨(split []).1, fun rest => (split rest).2⟩

theorem Same.manifest (same : store.Same app a b) (limit : Nat) :
    (store.manifest app limit a).answer = (store.manifest app limit b).answer ∧
      store.Same app (store.manifest app limit a).state (store.manifest app limit b).state := by
  obtain ⟨answer, after⟩ := same.access (.manifest limit)
  exact ⟨Given.manifest.inj answer, after⟩

theorem Same.service (same : store.Same app a b) :
    (store.service app a).answer = (store.service app b).answer ∧
      store.Same app (store.service app a).state (store.service app b).state := by
  obtain ⟨answer, after⟩ := same.access .service
  exact ⟨Given.service.inj answer, after⟩

/-- Where the store has the same of an app it has the same fault. -/
theorem Same.fault? (same : store.Same app a b) (config : Config) :
    store.fault? config a (some app) = store.fault? config b (some app) := by
  obtain ⟨read, after⟩ := same.manifest longestManifest
  simp only [Store.fault?, read, after.service.1]

/-- A fault is one of the app. -/
theorem blamesApp_of_fault? {config : Config} {name : Option AppName} {reason : StartError}
    (faulty : store.fault? config a name = some reason) : reason.blamesApp = true := by
  cases name with
  | none =>
    obtain rfl := Option.some.inj faulty
    rfl
  | some app =>
    simp only [Store.fault?] at faulty
    split at faulty
    · next bad =>
      obtain rfl := Option.some.inj faulty
      rcases Config.read_error bad with ⟨e, rfl⟩ | ⟨e, rfl⟩ <;> rfl
    · split at faulty
      · obtain rfl := Option.some.inj faulty
        rfl
      · contradiction

/-- What accesses to an app may change: neither the other apps, nor the list. -/
structure Leaves (store : Store σ ς) (app : AppName) (a b : ς) : Prop where
  others : ∀ other, other ≠ app → store.Same other b a
  name : ∀ index, store.name index b = store.name index a

theorem Leaves.refl (store : Store σ ς) (app : AppName) (a : ς) : store.Leaves app a a :=
  ⟨fun _ _ _ => rfl, fun _ => rfl⟩

theorem Leaves.access (separate : store.Separate) (leaves : store.Leaves app a b) (x : Access) :
    store.Leaves app a (store.access app x b).state :=
  ⟨fun other apart => (separate.others app other apart x b).trans (leaves.others other apart),
    fun index => (separate.name app x b index).trans (leaves.name index)⟩

end Store

/-- Two runs go alike but for the store: they end with the same answer, the same registry and the same besides the
store, and make the same calls but for those to the store. -/
def Agree (registry : Registry κ ψ) (handler : Handler (World σ) (ς × ν)) (p q : Work κ σ α) (s : ψ) (w v : ς × ν) :
    Prop :=
  let one := p.run registry handler s w
  let other := q.run registry handler s v
  one.answer = other.answer ∧ one.state.1 = other.state.1 ∧ one.state.2.2 = other.state.2.2 ∧
    (p.calls registry handler s w).filterMap Called.outside? = (q.calls registry handler s v).filterMap Called.outside?

section Agree

variable {registry : Registry κ ψ} {handler : Handler (World σ) (ς × ν)} {s : ψ} {w v : ς × ν}

theorem Agree.bind {p q : Work κ σ α} {f g : α → Work κ σ β} (first : Agree registry handler p q s w v)
    (rest : let one := p.run registry handler s w
      Agree registry handler (f one.answer) (g one.answer) one.state.1 one.state.2
        (q.run registry handler s v).state.2) :
    Agree registry handler (p >>= f) (q >>= g) s w v := by
  obtain ⟨answer, state, -, calls⟩ := first
  simp only [Agree, Program.run_andThen, Program.calls_bind, Reply.andThen, List.filterMap_append, calls] at rest ⊢
  rw [← answer, ← state]
  exact ⟨rest.1, rest.2.1, rest.2.2.1, congrArg _ rest.2.2.2⟩

/-- A program that makes no calls goes alike. -/
theorem Agree.of_silent {p : Work κ σ α} (silent : Program.Only (fun _ => False) p) (outside : w.2 = v.2) :
    Agree registry handler p p s w v :=
  Program.run_alike (fun w v : ς × ν => w.2 = v.2) silent (fun _ _ _ none => none.elim) outside registry s

/-- A program that leaves nothing behind but in the store may come first in one of the runs. -/
theorem Agree.after {p : Work κ σ α} {f : α → Work κ σ β} {q : Work κ σ β}
    (registered : (p.run registry handler s w).state.1 = s)
    (silent : (p.calls registry handler s w).filterMap Called.outside? = [])
    (rest : let one := p.run registry handler s w
      Agree registry handler (f one.answer) q s one.state.2 v) :
    Agree registry handler (p >>= f) q s w v := by
  simp only [Agree, Program.run_andThen, Program.calls_bind, Reply.andThen, List.filterMap_append, silent, registered,
    List.nil_append] at rest ⊢
  exact rest

end Agree

/-- Calls that start an app: those for the app itself, and those that are not for the store. -/
def Call.about (app : AppName) : Call σ → Prop
  | .manifest other _ | .service other => other = app
  | .count | .name _ => False
  | _ => True

namespace Roster

theorem only_bringUpWifi (app : AppName) : Program.Only (Call.about app) (Work.bringUpWifi : Work κ σ Bool) := by
  refine .bind (Program.only_call.mpr ⟨trivial, fun _ => trivial⟩) fun up => ?_
  cases up
  · exact ⟨trivial, fun _ => trivial⟩
  · trivial

theorem only_requireWifi (app : AppName) (manifest : Manifest) (failed : Bool) :
    Program.Only (Call.about app) (requireWifi manifest failed : Work κ σ _) := by
  unfold requireWifi
  split
  · split
    · trivial
    · refine (only_bringUpWifi app).bind fun up => ?_
      cases up <;> trivial
  · trivial

theorem only_requireClock (r : Roster σ) (app : AppName) (manifest : Manifest) (failed : Bool) :
    Program.Only (Call.about app) (r.requireClock app manifest failed : Work κ σ _) := by
  unfold requireClock
  split
  · refine .bind (Program.only_call.mpr ⟨trivial, fun _ => trivial⟩) fun time => ?_
    split
    · split
      · trivial
      · refine .bind (Program.only_log.mpr trivial) fun _ => ?_
        refine .bind (Program.only_call.mpr ⟨trivial, fun _ => trivial⟩) fun set => ?_
        split <;> trivial
    · trivial
  · trivial

theorem only_manifestOf (r : Roster σ) (app : AppName) :
    Program.Only (Call.about app) (r.manifestOf app : Work κ σ _) := by
  unfold manifestOf
  refine .bind (Program.only_call.mpr ⟨rfl, fun _ => trivial⟩) fun text => ?_
  cases text with
  | error e => trivial
  | ok text =>
    simp only
    cases Manifest.parse text with
    | error e => exact Program.only_noting.mpr trivial
    | ok manifest =>
      simp only
      cases manifest.checkVersion r.config.apiVersion <;> trivial

/-- Starting an app asks the store for nothing but that app. -/
theorem only_start (r : Roster σ) (key : TaskKey → κ) (app : AppName) (hostDraws failed : Bool) :
    Program.Only (Call.about app) (r.start key app hostDraws failed) := by
  have ready : Program.Only (Call.about app) (r.ready app hostDraws failed : Work κ σ _) := by
    unfold ready
    refine (only_manifestOf r app).bind fun manifest => ?_
    cases manifest with
    | error e => trivial
    | ok manifest =>
      refine .bind (Program.only_call.mpr ⟨rfl, fun _ => trivial⟩) fun service => ?_
      cases service with
      | error e => trivial
      | ok service =>
        refine (only_requireWifi app manifest failed).bind fun wifi => ?_
        cases wifi with
        | error e => trivial
        | ok _ =>
          refine (only_requireClock r app manifest failed).bind fun clock => ?_
          cases clock with
          | error e => trivial
          | ok _ =>
            refine .bind (Program.only_call.mpr ⟨trivial, fun _ => trivial⟩) ?_
            rintro ⟨result, service⟩
            cases result <;> trivial
  refine ready.bind fun slot => ?_
  cases slot with
  | error e => trivial
  | ok slot =>
    simp only
    split
    · exact .bind ((only_enlist r key slot).mono fun _ => False.elim) fun _ => trivial
    · trivial

end Roster

section Runs

variable {store : Store σ ς} {others : Handler (World σ) ν} {registry : Registry κ ψ} {config : Config} {s : ψ}
  {a b : ς} {v : ν} {app : AppName}

/-- The states of two runs that start the same app: the store has the same of that app, and what the accesses to it
change is the app alone. -/
structure Beside (store : Store σ ς) (app : AppName) (a b : ς) (w v : ς × ν) : Prop where
  outside : w.2 = v.2
  same : store.Same app w.1 v.1
  one : store.Leaves app a w.1
  other : store.Leaves app b v.1

/-- A call for an app, or one that is not for the store, goes alike. -/
theorem Beside.call (separate : store.Separate) {c : Call σ} (about : c.about app) {w v : ς × ν}
    (beside : Beside store app a b w v) :
    (store.among others c w).answer = (store.among others c v).answer ∧
      Beside store app a b (store.among others c w).state (store.among others c v).state ∧
        Called.outside? ((store.among others).called c w) = Called.outside? ((store.among others).called c v) := by
  obtain ⟨w, x⟩ := w
  obtain ⟨v, y⟩ := v
  obtain ⟨rfl, same, one, other⟩ := beside
  cases c with
  | count => exact about.elim
  | name index => exact about.elim
  | manifest name limit =>
    obtain rfl : name = app := about
    obtain ⟨answer, after⟩ := same.manifest limit
    exact ⟨answer, ⟨rfl, after, one.access separate (.manifest limit), other.access separate (.manifest limit)⟩, rfl⟩
  | service name =>
    obtain rfl : name = app := about
    obtain ⟨answer, after⟩ := same.service
    exact ⟨answer, ⟨rfl, after, one.access separate .service, other.access separate .service⟩, rfl⟩
  | connected | connect | time | setClock | setUp | loop | draw | beginDrawing | endDrawing | height =>
    exact ⟨rfl, ⟨rfl, same, one, other⟩, rfl⟩

/-- An app of which both stores have the same is started alike. -/
theorem Beside.start (separate : store.Separate) {w v : ς × ν} (beside : Beside store app a b w v)
    (others : Handler (World σ) ν) (registry : Registry κ ψ) (s : ψ) (r : Roster σ) (key : TaskKey → κ)
    (hostDraws failed : Bool) :
    Agree registry (store.among others) (r.start key app hostDraws failed) (r.start key app hostDraws failed) s w v ∧
      Beside store app a b ((r.start key app hostDraws failed).run registry (store.among others) s w).state.2
        ((r.start key app hostDraws failed).run registry (store.among others) s v).state.2 := by
  obtain ⟨answer, state, after, calls⟩ :=
    Program.run_alike (Beside store app a b) (Roster.only_start r key app hostDraws failed)
      (fun c w v about beside => beside.call separate about) beside registry s
  exact ⟨⟨answer, state, after.outside, calls⟩, after⟩

theorem BringsUp.stored {w after : ς × ν} {calls : List (Called σ (ς × ν))} {up : Bool}
    (brings : BringsUp (store.among others) w calls up after) : after.1 = w.1 := by
  cases brings with
  | there up => rfl
  | asked down left told =>
    subst left
    rfl

/-- Seeing to wifi leaves the store alone, and is no fault of the app. -/
theorem SeeksWifi.stored {manifest : Manifest} {failed : Bool} {w after : ς × ν} {calls : List (Called σ (ς × ν))}
    {result : Except StartError Unit} (seeks : SeeksWifi (store.among others) manifest failed w calls result after) :
    after.1 = w.1 ∧ StartError.blamed? result = none := by
  cases seeks with
  | unneeded idle => exact ⟨rfl, rfl⟩
  | givenUp needed before => exact ⟨rfl, rfl⟩
  | brought needed first brings => exact ⟨brings.stored, rfl⟩
  | refused needed first brings => exact ⟨brings.stored, rfl⟩

theorem SeeksClock.stored {manifest : Manifest} {failed : Bool} {w after : ς × ν} {calls : List (Called σ (ς × ν))}
    {result : Except StartError Unit}
    (clocks : SeeksClock (store.among others) config manifest failed w calls result after) :
    after.1 = w.1 ∧ StartError.blamed? result = none := by
  cases clocks with
  | unneeded idle => exact ⟨rfl, rfl⟩
  | valid needed shown => exact ⟨rfl, rfl⟩
  | givenUp needed shown before => exact ⟨rfl, rfl⟩
  | synced needed shown first left =>
    subst left
    exact ⟨rfl, rfl⟩

/-- What looking at an app may change: that app alone, and nothing if its name cannot be read. -/
def Store.Touched (store : Store σ ς) : Option AppName → ς → ς → Prop
  | none, a, after => after = a
  | some app, a, after => store.Leaves app a after

/-- Making a service ready fails for a fault of its app exactly if that has one, and leaves the store but for the app.
With a fault it leaves all else alone. -/
theorem Readying.fault (separate : store.Separate) {hostDraws failed : Bool} {calls : List (Called σ (ς × ν))}
    {ready : Except StartError (Slot σ)} {after : ς × ν}
    (readying : Readying (store.among others) config app hostDraws failed (a, v) calls ready after) :
    store.Leaves app a after.1 ∧ StartError.blamed? ready = store.fault? config a (some app) ∧
      ∀ reason, store.fault? config a (some app) = some reason →
        after.2 = v ∧ calls.filterMap Called.outside? = [] := by
  have manifest := (Store.Leaves.refl store app a).access separate (.manifest longestManifest)
  have loaded := manifest.access separate .service
  have sound {manifest : Manifest} {service : σ} {found : ς × ν}
      (loads : Loads (store.among others) config app (a, v) manifest service found) :
      store.fault? config a (some app) = none := by
    have read : config.read (store.manifest app longestManifest a).answer = .ok manifest := loads.read
    have there : (store.service app (store.manifest app longestManifest a).state).answer = .ok service := loads.found
    simp only [Store.fault?, read, there]
  cases readying with
  | @unread reason bad =>
    have bad : config.read (store.manifest app longestManifest a).answer = .error reason := bad
    have faulty : store.fault? config a (some app) = some reason := by simp only [Store.fault?, bad]
    refine ⟨manifest, ?_, fun _ _ => ⟨rfl, rfl⟩⟩
    rw [faulty, StartError.blamed?, if_pos (Store.blamesApp_of_fault? faulty)]
  | @unloaded _ e _ read left bad =>
    subst left
    have read : config.read (store.manifest app longestManifest a).answer = .ok _ := read
    have bad : (store.service app (store.manifest app longestManifest a).state).answer = .error e := bad
    refine ⟨loaded, ?_, fun _ _ => ⟨rfl, rfl⟩⟩
    simp only [Store.fault?, read, bad]
    rfl
  | wifiless loads seeks =>
    obtain ⟨kept, innocent⟩ := seeks.stored
    rw [sound loads, kept, loads.left]
    exact ⟨loaded, innocent, fun _ wrong => by contradiction⟩
  | clockless loads seeks clocks =>
    obtain ⟨kept, innocent⟩ := clocks.stored
    rw [sound loads, kept, seeks.stored.1, loads.left]
    exact ⟨loaded, innocent, fun _ wrong => by contradiction⟩
  | @setUp manifest service found between after wifi clock loads seeks clocks =>
    rw [sound loads]
    refine ⟨?_, ?_, fun _ wrong => by contradiction⟩
    · show store.Leaves app a after.1
      rw [clocks.stored.1, seeks.stored.1, loads.left]
      exact loaded
    · obtain ⟨result, last⟩ := ((store.among others) (.setUp service) after).answer
      cases result <;> rfl

/-- A broken app is not started, for its fault, and leaves nothing behind but in the store. -/
theorem Roster.start_broken (separate : store.Separate) {r : Roster σ} {reason : StartError}
    (faulty : store.fault? r.config a (some app) = some reason) (others : Handler (World σ) ν)
    (registry : Registry κ ψ) (s : ψ) (v : ν) (key : TaskKey → κ) (hostDraws failed : Bool) :
    let started := (r.start key app hostDraws failed).run registry (store.among others) s (a, v)
    started.answer = .error reason ∧ started.state.1 = s ∧ started.state.2.2 = v ∧
      store.Leaves app a started.state.2.1 ∧
      ((r.start key app hostDraws failed).calls registry (store.among others) s (a, v)).filterMap
        Called.outside? = [] := by
  obtain ⟨⟨ready, readying, placed⟩, unregistered⟩ :=
    ends_start registry (store.among others) s (a, v) r key app hostDraws failed
  obtain ⟨leaves, blamed, silently⟩ := readying.fault separate
  obtain ⟨outside, silent⟩ := silently reason faulty
  obtain rfl := StartError.blamed?_eq_some (blamed.trans faulty)
  generalize result : ((r.start key app hostDraws failed).run registry (store.among others) s (a, v)).answer = answer
    at placed unregistered
  cases placed with
  | skipped reason => exact ⟨result, unregistered reason rfl, outside, leaves, silent⟩

theorem Without.subset {p : α → Prop} {l rest : List α} (without : Without p l rest) : rest ⊆ l := by
  induction without with
  | nil => exact List.Subset.refl _
  | kept a others ih => exact List.cons_subset_cons a ih
  | dropped is others ih => exact List.subset_cons_of_subset _ ih

/-- The apps ahead: their names, in order, and of each the store has the same as at first. -/
structure Ahead (store : Store σ ς) (first : ς) (names : List (Option AppName)) (indices : List Nat) (a : ς) :
    Prop where
  named : indices.map (store.name · a) = names
  same : ∀ app, some app ∈ names → store.Same app a first

namespace Ahead

variable {first : ς} {name : Option AppName} {names : List (Option AppName)} {indices : List Nat}

theorem cons (ahead : Ahead store first (name :: names) indices a) :
    ∃ index rest, indices = index :: rest ∧ store.name index a = name ∧ Ahead store first names rest a := by
  obtain ⟨named, same⟩ := ahead
  cases indices with
  | nil => contradiction
  | cons index rest =>
    obtain ⟨here, later⟩ := List.cons.inj named
    exact ⟨index, rest, rfl, here, later, fun app member => same app (List.mem_cons_of_mem _ member)⟩

/-- Looking at another app changes nothing of those ahead. -/
theorem touched (ahead : Ahead store first names indices a) {after : ς} (touched : store.Touched name a after)
    (new : ∀ app, name = some app → some app ∉ names) : Ahead store first names indices after := by
  cases name with
  | none =>
    obtain rfl : after = a := touched
    exact ahead
  | some app =>
    refine ⟨?_, fun other member => ?_⟩
    · rw [← ahead.named]
      exact List.map_congr_left fun index _ => touched.name index
    · have apart : other ≠ app := fun same => new app rfl (same ▸ member)
      exact (touched.others other apart).trans (ahead.same other member)

/-- The next app has the fault that it had at first. -/
theorem fault? (ahead : Ahead store first (name :: names) indices a) (config : Config) :
    store.fault? config a name = store.fault? config first name := by
  cases name with
  | none => rfl
  | some app => exact (ahead.same app List.mem_cons_self).fault? config

end Ahead

/-- Where no readable name is there twice, the first is not among the others. -/
theorem distinct_cons {name : Option AppName} {names : List (Option AppName)}
    (distinct : ((name :: names).filterMap id).Nodup) :
    (∀ app, name = some app → some app ∉ names) ∧ (names.filterMap id).Nodup := by
  cases name with
  | none => exact ⟨fun app wrong => by contradiction, distinct⟩
  | some app =>
    obtain ⟨unseen, others⟩ := List.nodup_cons.mp distinct
    refine ⟨fun other same member => ?_, others⟩
    obtain rfl := Option.some.inj same
    exact unseen (List.mem_filterMap.mpr ⟨some app, member, rfl⟩)

/-- Asking for the number of apps leaves everything as it was. -/
theorem Agree.count {f g : Except StorageError Nat → Work κ σ α} {many few : Except StorageError Nat}
    (one : store.count a = many) (other : store.count b = few)
    (rest : Agree registry (store.among others) (f many) (g few) s (a, v) (b, v)) :
    Agree registry (store.among others) (Work.on .count >>= f) (Work.on .count >>= g) s (a, v) (b, v) := by
  subst one other
  exact rest

/-- A name is read alike where the lists have the same. -/
theorem Agree.name {i j : Nat} (same : store.name i a = store.name j b) :
    Agree registry (store.among others) (Work.on (.name i)) (Work.on (.name j)) s (a, v) (b, v) :=
  ⟨same, rfl, rfl, rfl⟩

namespace Roster

/-- Starting services goes on past a broken app as if that were not there. -/
theorem startAll_past (separate : store.Separate) {r : Roster σ} {name : Option AppName} {index : Nat}
    (here : store.name index a = name) {reason : StartError} (faulty : store.fault? r.config a name = some reason)
    (key : TaskKey → κ) (hostDraws : Bool) (indices : List Nat) (failed : Bool) {q : Work κ σ (Roster σ)} {w : ς × ν}
    (rest : ∀ after, store.Touched name a after →
      Agree registry (store.among others) (startAll key hostDraws indices failed r) q s (after, v) w) :
    Agree registry (store.among others) (startAll key hostDraws (index :: indices) failed r) q s (a, v) w := by
  simp only [startAll]
  refine Agree.after rfl rfl ?_
  simp only [Work.on, Program.run, Reply.andThen, Store.among, here]
  cases name with
  | none => exact Agree.after rfl rfl (rest a rfl)
  | some app =>
    obtain ⟨answer, registered, outside, leaves, silent⟩ :=
      start_broken separate faulty others registry s v key hostDraws failed
    refine Agree.after registered silent ?_
    generalize (r.start key app hostDraws failed).run registry (store.among others) s (a, v) = ran
      at answer registered outside leaves ⊢
    obtain ⟨result, ⟨s', after, v'⟩, _⟩ := ran
    obtain rfl : result = .error reason := answer
    obtain rfl : s' = s := registered
    obtain rfl : v' = v := outside
    refine Agree.after rfl rfl ?_
    simp only [(StartError.blamesApp_wifi (Store.blamesApp_of_fault? faulty)), Bool.or_false]
    exact rest after leaves

/-- An app that comes next in both stores, with the same of it in both, is started alike. -/
theorem startAll_beside (separate : store.Separate) {r : Roster σ} {name : Option AppName} {i j : Nat}
    (here : store.name i a = name) (there : store.name j b = name)
    (same : ∀ app, name = some app → store.Same app a b) (key : TaskKey → κ) (hostDraws : Bool) (is js : List Nat)
    (failed : Bool)
    (rest : ∀ failed last s a' b' v, last.config = r.config → store.Touched name a a' → store.Touched name b b' →
      Agree registry (store.among others) (startAll key hostDraws is failed last)
        (startAll key hostDraws js failed last) s (a', v) (b', v)) :
    Agree registry (store.among others) (startAll key hostDraws (i :: is) failed r)
      (startAll key hostDraws (j :: js) failed r) s (a, v) (b, v) := by
  simp only [startAll]
  refine (Agree.name (here.trans there.symm)).bind ?_
  simp only [Work.on, Program.run, Reply.andThen, Store.among, here]
  cases name with
  | none => exact Agree.bind ⟨rfl, rfl, rfl, rfl⟩ (rest failed r s a b v rfl rfl rfl)
  | some app =>
    have beside : Beside store app a b (a, v) (b, v) := ⟨rfl, same app rfl, .refl store app a, .refl store app b⟩
    obtain ⟨agree, after⟩ := beside.start separate others registry s r key hostDraws failed
    have config := start_config registry (store.among others) s (a, v) r key app hostDraws failed
    refine agree.bind ?_
    generalize (r.start key app hostDraws failed).run registry (store.among others) s (a, v) = ran at after config ⊢
    generalize ((r.start key app hostDraws failed).run registry (store.among others) s (b, v)).state.2 = left
      at after ⊢
    obtain ⟨result, ⟨s, a', v⟩, _⟩ := ran
    obtain ⟨b', v'⟩ := left
    obtain ⟨rfl, -, one, other⟩ := after
    cases result with
    | ok last => exact Agree.bind ⟨rfl, rfl, rfl, rfl⟩ (rest failed last s a' b' v (config last rfl) one other)
    | error reason => exact Agree.bind ⟨rfl, rfl, rfl, rfl⟩ (rest _ r s a' b' v rfl one other)

/-- Starting services goes the same without the broken apps among those ahead. -/
theorem startAll_agree {first : ς} (separate : store.Separate) (key : TaskKey → κ) (hostDraws : Bool)
    {names rest : List (Option AppName)}
    (without : Without (fun name => (store.fault? config first name).isSome = true) names rest)
    (distinct : (names.filterMap id).Nodup) :
    ∀ (is js : List Nat) (failed : Bool) (r : Roster σ) (s : ψ) (a b : ς) (v : ν), r.config = config →
      Ahead store first names is a → Ahead store first rest js b →
      Agree registry (store.among others) (startAll key hostDraws is failed r) (startAll key hostDraws js failed r) s
        (a, v) (b, v) := by
  induction without with
  | nil =>
    intro is js failed r s a b v rules ahead behind
    obtain rfl : is = [] := List.map_eq_nil_iff.mp ahead.named
    obtain rfl : js = [] := List.map_eq_nil_iff.mp behind.named
    exact ⟨rfl, rfl, rfl, rfl⟩
  | @kept name names rest without ih =>
    intro is js failed r s a b v rules ahead behind
    obtain ⟨i, is, rfl, here, one⟩ := ahead.cons
    obtain ⟨j, js, rfl, there, other⟩ := behind.cons
    obtain ⟨new, distinct⟩ := distinct_cons distinct
    have same (app : AppName) (is : name = some app) : store.Same app a b := by
      subst is
      exact (ahead.same app List.mem_cons_self).trans (behind.same app List.mem_cons_self).symm
    refine startAll_beside separate here there same key hostDraws is js failed ?_
    intro failed last s a' b' v kept touched touched'
    refine ih distinct is js failed last s a' b' v (kept.trans rules) (one.touched touched new) ?_
    exact other.touched touched' fun app is member => new app is (without.subset member)
  | @dropped name broken names rest without ih =>
    intro is js failed r s a b v rules ahead behind
    obtain ⟨i, is, rfl, here, one⟩ := ahead.cons
    obtain ⟨new, distinct⟩ := distinct_cons distinct
    obtain ⟨reason, faulty⟩ := Option.isSome_iff_exists.mp broken
    rw [← ahead.fault?, ← rules] at faulty
    exact startAll_past separate here faulty key hostDraws is failed fun after touched =>
      ih distinct is js failed r s after b v rules (one.touched touched new) behind

end Roster

/-- Looking at an app reports a fault of the app exactly if there is one, and changes the store for that app alone. -/
theorem Looking.fault (separate : store.Separate) {hostDraws failed : Bool} {r between : Roster σ} {index : Nat}
    {w after : ς × ν} {attempt : Attempt σ (ς × ν)}
    (looking : Looking (store.among others) hostDraws failed r index w attempt between after) :
    StartError.blamed? attempt.report = store.fault? r.config w.1 (store.name index w.1) ∧
      store.Touched (store.name index w.1) w.1 after.1 := by
  obtain ⟨a, v⟩ := w
  cases looking with
  | nameless none =>
    have unnamed : store.name index a = .none := none
    rw [unnamed]
    exact ⟨rfl, rfl⟩
  | @skipped app _ _ _ _ named readying placed =>
    have named : store.name index a = some app := named
    obtain ⟨leaves, blamed, -⟩ := readying.fault separate
    rw [named]
    cases placed with
    | skipped reason => exact ⟨blamed, leaves⟩
    | full slot taken => exact ⟨blamed, leaves⟩
  | @started app _ _ _ _ named readying placed =>
    have named : store.name index a = some app := named
    obtain ⟨leaves, blamed, -⟩ := readying.fault separate
    rw [named]
    cases placed with
    | enlisted slot room loopTask drawList => exact ⟨blamed, leaves⟩

/-- The apps that are reported at fault are those with a fault, for that fault. -/
theorem LookingAll.blamed (separate : store.Separate) {first : ς} {hostDraws failed : Bool} {indices : List Nat}
    {r last : Roster σ} {w after : ς × ν} {attempts : List (Attempt σ (ς × ν))}
    (looking : LookingAll (store.among others) hostDraws indices failed r w attempts last after)
    {names : List (Option AppName)} (ahead : Ahead store first names indices w.1)
    (distinct : (names.filterMap id).Nodup) :
    attempts.map (fun a => StartError.blamed? a.report) = names.map (store.fault? r.config first) := by
  induction looking generalizing names with
  | done failed r w =>
    obtain rfl := ahead.named
    rfl
  | @next index rest failed lost r between last w found after a attempts looked known more ih =>
    cases names with
    | nil => exact absurd ahead.named (List.cons_ne_nil _ _)
    | cons name names =>
      obtain ⟨new, distinct⟩ := distinct_cons distinct
      obtain ⟨index, rest, same, here, later⟩ := ahead.cons
      obtain ⟨rfl, rfl⟩ := List.cons.inj same
      obtain ⟨blamed, touched⟩ := looked.fault separate
      rw [here] at blamed touched
      rw [looked.config] at ih
      rw [List.map_cons, List.map_cons, blamed, ahead.fault?, ih (later.touched touched new) distinct]

namespace Roster

/-- A broken app does not affect the others. The store may be any in which reading or loading one app does not
affect the others, and in whose list no readable name occurs twice; the network, the services, the registry and the
rules may be any. The apps that are skipped for an unreadable name, for a manifest that is missing, malformed,
incomplete or for another version, or for a missing service, are those for which the store has such a fault. With or
without any of them on the list, starting the services ends alike: with the same roster and the same report, the same
registry, the same network and surroundings, and after the same calls to these. -/
theorem broken_apps_leave_no_trace (store : Store σ ς) (separate : store.Separate) (others : Handler (World σ) ν)
    (registry : Registry κ ψ) (r : Roster σ) (key : TaskKey → κ) (hostDraws : Bool) (s : ψ) (v : ν) (a b : ς)
    (names rest : List (Option AppName)) (listed : store.list a = .ok names) (left : store.list b = .ok rest)
    (distinct : (names.filterMap id).Nodup)
    (without : Without (fun name => (store.fault? r.config a name).isSome = true) names rest)
    (same : ∀ app, some app ∈ rest → store.Same app b a) :
    (r.installing registry (store.among others) key hostDraws s (a, v)).map (fun a => StartError.blamed? a.report) =
        names.map (store.fault? r.config a) ∧
      Agree registry (store.among others) (r.startInstalled key hostDraws) (r.startInstalled key hostDraws) s (a, v)
        (b, v) := by
  obtain ⟨-, last, looking, -⟩ := ends_startInstalled registry (store.among others) s (a, v) r key hostDraws
  cases many : store.count a with
  | error e =>
    rw [Store.list, many] at listed
    contradiction
  | ok count =>
    cases few : store.count b with
    | error e =>
      rw [Store.list, few] at left
      contradiction
    | ok fewer =>
      rw [Store.list, many] at listed
      rw [Store.list, few] at left
      have ahead : Ahead store a names (List.range count) a := ⟨Except.ok.inj listed, fun _ _ _ => rfl⟩
      have behind : Ahead store a rest (List.range fewer) b := ⟨Except.ok.inj left, same⟩
      have indices : installed (store.among others) (a, v) = List.range count := by
        have counted : (store.among others .count (a, v)).answer = .ok count := many
        simp only [installed, counted]
      refine ⟨?_, ?_⟩
      · rw [indices] at looking
        exact looking.blamed separate ahead distinct
      · have agree : Agree registry (store.among others) _ _ s (a, v) (b, v) := startAll_agree separate key hostDraws
          without distinct (List.range count) (List.range fewer) false r s a b v rfl ahead behind
        refine Agree.count many few (agree.bind ?_)
        exact Agree.of_silent (only_registerDraw _ key hostDraws) agree.2.2.1

end Roster
end Runs

/-- Apps by name, with the services that were taken; none can be taken twice. -/
structure Shelf where
  apps : List (Option AppName)
  taken : List AppName

/-- The app `bare` has no manifest, that of `garbled` is cut off, and `scriptless` has no service. -/
def shelf : Store Unit Shelf where
  count a := .ok a.apps.length
  name index a := a.apps.getD index none
  manifest app _ a :=
    let text := if app.text = "garbled" then "\x7b" else Manifest.needing (app.text = "news") none false
    ⟨if app.text = "bare" then .error .notFound else .ok text, a, []⟩
  service app a :=
    let missing := app.text = "scriptless" ∨ app ∈ a.taken
    ⟨if missing then .error .notFound else .ok (), { a with taken := app :: a.taken }, []⟩

theorem same_shelf {app : AppName} {a b : Shelf} (alike : app ∈ a.taken ↔ app ∈ b.taken) : shelf.Same app a b := by
  intro accesses
  induction accesses generalizing a b with
  | nil => rfl
  | cons x rest ih =>
    have answer : (shelf.access app x a).answer = (shelf.access app x b).answer := by
      cases x <;> simp only [Store.access, shelf, alike]
    have after : app ∈ (shelf.access app x a).state.taken ↔ app ∈ (shelf.access app x b).state.taken := by
      cases x with
      | manifest limit => exact alike
      | service => exact iff_of_true List.mem_cons_self List.mem_cons_self
    simp only [Store.offers, answer, ih after]

theorem separate_shelf : shelf.Separate where
  others app other apart x a := by
    refine same_shelf ?_
    cases x with
    | manifest limit => rfl
    | service => exact List.mem_cons.trans (or_iff_right apart)
  name app x a index := by cases x <;> rfl

namespace Roster

/-- Of six apps two are started, and nothing tells that the others were there. -/
theorem broken_apps_leave_no_trace_shelf :
    let r : Roster Unit := empty 8 .standard
    let news := AppName.ofString? "news"
    let clock := AppName.ofString? "clock"
    let all : Shelf :=
      ⟨[AppName.ofString? "bare", news, none, AppName.ofString? "garbled", clock, AppName.ofString? "scriptless"], []⟩
    let sound : Shelf := ⟨[news, clock], []⟩
    let start : Work Key Unit (Bool × Roster Unit) := r.startInstalled Key.service true
    let started := start.run Scheduler.registry (shelf.among threeApps) almostFull (all, ())
    (shelf.Separate ∧ shelf.list all = .ok all.apps ∧ shelf.list sound = .ok sound.apps ∧
        (all.apps.filterMap id).Nodup ∧
        Without (fun name => (shelf.fault? r.config all name).isSome = true) all.apps sound.apps ∧
        ∀ app, some app ∈ sound.apps → shelf.Same app sound all) ∧
      started.answer.2.slots.map (·.name.text) = ["news", "clock"] ∧
      Agree Scheduler.registry (shelf.among threeApps) start start almostFull (all, ()) (sound, ()) := by
  intro r news clock all sound start started
  have evaluated : (all.apps.filterMap id).Nodup ∧
      all.apps.map (fun name => (shelf.fault? r.config all name).isSome) = [true, false, true, true, false, true] ∧
      started.answer.2.slots.map (·.name.text) = ["news", "clock"] := by decide +kernel
  obtain ⟨distinct, faults, slots⟩ := evaluated
  simp only [all, List.map_cons, List.cons.injEq] at faults
  obtain ⟨bare, -, nameless, garbled, -, scriptless, -⟩ := faults
  have without : Without (fun name => (shelf.fault? r.config all name).isSome = true) all.apps sound.apps := by
    refine .dropped ?_ (.kept news (.dropped ?_ (.dropped ?_ (.kept clock (.dropped ?_ .nil)))))
    · exact bare
    · exact nameless
    · exact garbled
    · exact scriptless
  have same : ∀ app, some app ∈ sound.apps → shelf.Same app sound all := fun _ _ => same_shelf Iff.rfl
  exact ⟨⟨separate_shelf, rfl, rfl, distinct, without, same⟩, slots,
    (broken_apps_leave_no_trace shelf separate_shelf threeApps Scheduler.registry r Key.service true almostFull () all
      sound all.apps sound.apps rfl rfl distinct without same).2⟩

end Roster
end ConferenceBadge.Service
