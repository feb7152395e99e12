import ConferenceBadge.Device.ManualTimer
import ConferenceBadge.Proofs.Calls
import ConferenceBadge.Proofs.Power
import ConferenceBadge.Proofs.Scheduler.IdleTime

/-!
What idle detection does to the platform. The owner of a power manager works with it through a few uses
(`Use`), between ticks and as the tasks of a tick, and everything that happens on the way is told in order
(`Happening`). The manager is led by what happened (`Manager.Led`): its hook is the one installed last, it
has counted the sleep requests, and each run of idle detection made the calls that its view of the tasks
asks for (`Manager.Detects`).
-/
namespace ConferenceBadge

variable {κ η ω ρ σ τ α : Type}

namespace Task

/-- The idle time that tasks leave: the least time left of the visible ones, if there are any. -/
def IsIdleTime (tasks : List (Task κ)) : IdleTime → Prop
  | .lasting d => (∃ t ∈ tasks, t.visibility = .visible ∧ t.left = d) ∧
      ∀ t ∈ tasks, t.visibility = .visible → d ≤ t.left
  | .forever => ∀ t ∈ tasks, t.visibility = .hidden

theorem isIdleTime_idleTime (tasks : List (Task κ)) : IsIdleTime tasks (idleTime tasks) := by
  cases idle : idleTime tasks with
  | lasting d => exact idleTime_eq_lasting_iff.mp idle
  | forever => exact idleTime_eq_forever_iff.mp idle

/-- The idle time is longer than a ceiling where every visible task has longer left. -/
theorem longerThan_idleTime_iff {tasks : List (Task κ)} {ceiling : Duration} :
    (idleTime tasks).longerThan ceiling = true ↔ ∀ t ∈ tasks, t.visibility = .visible → ceiling < t.left := by
  cases idle : idleTime tasks with
  | lasting d =>
    obtain ⟨⟨u, there, seen, rfl⟩, least⟩ := idleTime_eq_lasting_iff.mp idle
    refine decide_eq_true_iff.trans ⟨fun long t member visible => ?_, fun long => long u there seen⟩
    exact Nat.lt_of_lt_of_le long (least t member visible)
  | forever =>
    have hidden := idleTime_eq_forever_iff.mp idle
    refine ⟨fun _ t member visible => ?_, fun _ => rfl⟩
    rw [hidden t member] at visible
    contradiction

end Task

namespace Power

def Call.isSleep : Call η → Bool
  | sleep _ => true
  | preSleep .. => false

/-- What the owner of a power manager may do with it and with the platform, apart from sleeping. -/
inductive Use (η ω : Type) where
  | postpone
  | disarm
  /-- what the manager's task does -/
  | run
  | hook (next : Option η)
  | platform (change : ω → ω)

@[reducible] def Use.Answer {η ω : Type} : Use η ω → Type
  | postpone => Except RegistryError Handle
  | disarm => Bool
  | run => Outcome
  | hook _ | platform _ => Unit

/-- The uses as calls. -/
abbrev Uses (η ω : Type) : Interface := ⟨Use η ω, Use.Answer⟩

/-- A power manager with its platform. -/
structure Powered (κ η ω : Type) where
  manager : Manager κ η
  platform : ω

/-- Something that happened to a power manager. -/
inductive Happening (κ η : Type) where
  /-- the hook was installed, replaced or cleared -/
  | hooked (hook : Option η)
  /-- idle detection ran: the manager before it, the tasks that there were, the calls, the manager after it -/
  | detected (before : Manager κ η) (view : List (Task κ)) (calls : List (Call η)) (after : Manager κ η)

namespace Happening

/-- The calls on the platform. -/
def calls : Happening κ η → List (Call η)
  | hooked _ => []
  | detected _ _ calls _ => calls

/-- The hook installed last, where one hook was there at first. -/
def lastHook (first : Option η) (happened : List (Happening κ η)) : Option η :=
  happened.foldl (fun hook h => match h with | hooked next => next | detected .. => hook) first

/-- How often the platform was sent to sleep. -/
def sleeps (happened : List (Happening κ η)) : Nat := (happened.flatMap calls).countP Call.isSleep

end Happening

namespace Manager

/-- The calls that idle detection makes with a view of the tasks: none where a visible task has at most the
threshold left, and else the hook, if there is one, and sleep, both for the idle time. -/
structure Detects (m : Manager κ η) (view : List (Task κ)) (calls : List (Call η)) : Prop where
  awake : (∃ t ∈ view, t.visibility = .visible ∧ t.left ≤ m.config.sleepThreshold) → calls = []
  asleep : (¬∃ t ∈ view, t.visibility = .visible ∧ t.left ≤ m.config.sleepThreshold) →
    ∃ idle, Task.IsIdleTime view idle ∧ calls = m.hook.toList.map (.preSleep · idle) ++ [.sleep ⟨idle.duration?⟩]

/-- The calls for an idle time. -/
def callsFor (m : Manager κ η) (idle : IdleTime) : List (Call η) :=
  if idle.longerThan m.config.sleepThreshold then
    m.hook.toList.map (.preSleep · idle) ++ [.sleep ⟨idle.duration?⟩]
  else []

theorem detects_callsFor (m : Manager κ η) (view : List (Task κ)) : m.Detects view (m.callsFor (Task.idleTime view)) := by
  constructor
  · rintro ⟨t, member, visible, soon⟩
    refine if_neg fun long => ?_
    exact Nat.not_lt_of_le soon (Task.longerThan_idleTime_iff.mp long t member visible)
  · intro none
    refine ⟨_, Task.isIdleTime_idleTime view, if_pos (Task.longerThan_idleTime_iff.mpr ?_)⟩
    intro t member visible
    exact Nat.lt_of_not_le fun soon => none ⟨t, member, visible, soon⟩

/-- The manager after so many more sleep requests. -/
def counting (m : Manager κ η) (n : Nat) : Manager κ η := { m with requests := m.requests + UInt32.ofNat n }

/-- A run of idle detection makes the calls for the idle time that it is told, and counts its sleep request. -/
theorem ends_run {registry : Registry κ σ} {s : σ} {idle : IdleTime} (told : registry .idleTime s = ⟨idle, s, []⟩)
    (m : Manager κ η) (platform : Handler (Platform η) ω) (w : ω) :
    Program.Ends registry platform
      (fun calls ran after _ => calls.map (·.call) = m.callsFor idle ∧
        ran = (.again m.config.responseTime, m.counting ((m.callsFor idle).countP Call.isSleep)) ∧ after = s)
      m.run s w := by
  have ends_idleTime {post : List ((Platform η).Called ω) → IdleTime → σ → ω → Prop} :
      Program.Ends registry platform post Program.idleTime s w ↔ post [] idle s w := by
    show post [] (registry .idleTime s).answer (registry .idleTime s).state w ↔ _
    rw [told]
  obtain ⟨key, config, handle, hook, requests⟩ := m
  simp only [run, Program.ends_bind, ends_idleTime, Program.ends_log, decision, callsFor]
  cases idle.longerThan config.sleepThreshold with
  | false => exact ⟨rfl, congrArg (_, ·) (by simp [counting]), rfl⟩
  | true =>
    simp only [↓reduceIte, goToSleep, Program.ends_bind, preSleep, sleep]
    cases hook with
    | none => exact ⟨rfl, rfl, rfl⟩
    | some hook =>
      simp only [Program.ends_bind, Program.ends_call, Program.ends_done]
      cases (platform (.preSleep hook idle) w).answer <;> exact ⟨rfl, rfl, rfl⟩

/-- What a manager is led by: its hook is the one installed last, it has counted its sleep requests, and so
it was whenever idle detection ran, which changed nothing of it but the count. -/
structure Led (start : Manager κ η) (happened : List (Happening κ η)) (m : Manager κ η) : Prop where
  config : m.config = start.config
  hook : m.hook = Happening.lastHook start.hook happened
  requests : m.requests = start.requests + UInt32.ofNat (Happening.sleeps happened)
  ran : ∀ earlier before view calls after later, happened = earlier ++ .detected before view calls after :: later →
    before.config = start.config ∧ before.hook = Happening.lastHook start.hook earlier ∧
      before.requests = start.requests + UInt32.ofNat (Happening.sleeps earlier) ∧
      before.Detects view calls ∧ after = { before with requests := after.requests }

namespace Led

variable {start m : Manager κ η} {happened : List (Happening κ η)}

theorem begun : Led start [] start where
  config := rfl
  hook := rfl
  requests := (UInt32.add_zero _).symm
  ran earlier before view calls after later parts := absurd parts (by simp)

/-- The handle is no part of what a manager is led by. -/
theorem rehandled (led : Led start happened m) (handle : Option Handle) : Led start happened { m with handle } :=
  ⟨led.config, led.hook, led.requests, led.ran⟩

/-- One more happening. -/
theorem next (led : Led start happened m) {h : Happening κ η} {after : Manager κ η} (config : after.config = m.config)
    (hook : after.hook = Happening.lastHook m.hook [h])
    (requests : after.requests = m.requests + UInt32.ofNat (Happening.sleeps [h]))
    (ran : ∀ before view calls left, h = .detected before view calls left →
      before = m ∧ before.Detects view calls ∧ left = { before with requests := left.requests }) :
    Led start (happened ++ [h]) after where
  config := config.trans led.config
  hook := by
    rw [hook, led.hook, Happening.lastHook, Happening.lastHook, Happening.lastHook, List.foldl_append]
  requests := by
    rw [requests, led.requests, UInt32.add_assoc, ← UInt32.ofNat_add, Happening.sleeps, Happening.sleeps,
      Happening.sleeps, List.flatMap_append, List.countP_append]
  ran earlier before view calls left later parts := by
    rcases List.eq_nil_or_concat' later with rfl | ⟨more, last, rfl⟩
    · obtain ⟨rfl, only⟩ := List.append_inj' parts rfl
      obtain ⟨rfl, detects, same⟩ := ran before view calls left (List.singleton_inj.mp only)
      exact ⟨led.config, led.hook, led.requests, detects, same⟩
    · rw [← List.cons_append, ← List.append_assoc] at parts
      obtain ⟨rfl, -⟩ := List.append_inj' parts rfl
      exact led.ran earlier before view calls left more rfl

theorem hooked (led : Led start happened m) (next : Option η) :
    Led start (happened ++ [.hooked next]) (m.withHook next) :=
  led.next rfl rfl (UInt32.add_zero _).symm nofun

/-- A run of idle detection. -/
theorem detected (led : Led start happened m) (view : List (Task κ)) :
    let calls := m.callsFor (Task.idleTime view)
    let after := m.counting (calls.countP Call.isSleep)
    Led start (happened ++ [.detected m view calls after]) after := by
  refine led.next rfl rfl ?_ ?_
  · rw [Happening.sleeps, List.flatMap_singleton]
    rfl
  · rintro before seen calls left ⟨rfl, rfl, rfl, rfl⟩
    exact ⟨rfl, detects_callsFor _ _, rfl⟩

end Led
end Manager

namespace Use

/-- What a use asks the registry, and what it leaves. -/
def script (platform : Handler (Platform η) ω) (p : Powered κ η ω) :
    (use : Use η ω) → Script κ (use.Answer × Powered κ η ω)
  | postpone => do
    let armed ← p.manager.postpone
    return (armed.1, { p with manager := armed.2 })
  | disarm => do
    let removed ← p.manager.disarm
    return (removed.1, { p with manager := removed.2 })
  | run => do
    let ran ← p.manager.run.serve platform p.platform
    return (ran.1.1, { manager := ran.1.2, platform := ran.2 })
  | hook next => return ((), { p with manager := p.manager.withHook next })
  | Use.platform change => return ((), { p with platform := change p.platform })

/-- What happens in a use. -/
def happenings (registry : Registry κ σ) (view : σ → List (Task κ)) (platform : Handler (Platform η) ω)
    (p : Powered κ η ω) (s : σ) : Use η ω → List (Happening κ η)
  | run =>
    let calls := p.manager.run.calls registry platform s p.platform
    let ran := p.manager.run.run registry platform s p.platform
    [.detected p.manager (view s) (calls.map (·.call)) ran.answer.2]
  | hook next => [.hooked next]
  | postpone | disarm | Use.platform _ => []

end Use

/-- Answers the uses of a program from a manager and its platform. -/
def attend (platform : Handler (Platform η) ω) :
    Program κ (Uses η ω) α → Powered κ η ω → Script κ (α × Powered κ η ω)
  | .done a, p => .done (a, p)
  | .ask q next, p => .ask q fun a => attend platform (next a) p
  | .call use next, p => (Use.script platform p use).bind fun done => attend platform (next done.1) done.2
  | .note line next, p => .note line (attend platform next p)

/-- What happens in a run of a program. -/
def happenings (registry : Registry κ σ) (view : σ → List (Task κ)) (platform : Handler (Platform η) ω) :
    Program κ (Uses η ω) α → Powered κ η ω → σ → List (Happening κ η)
  | .done _, _, _ => []
  | .ask q next, p, s =>
    happenings registry view platform (next (registry q s).answer) p (registry q s).state
  | .call use next, p, s =>
    let done := (Use.script platform p use).run registry s
    use.happenings registry view platform p s ++
      happenings registry view platform (next done.answer.1) done.answer.2 done.state
  | .note _ next, p, s => happenings registry view platform next p s

section
variable {registry : Registry κ σ} {view : σ → List (Task κ)} {start : Manager κ η}
  {happened : List (Happening κ η)}

theorem Manager.Led.use (told : ∀ s, registry .idleTime s = ⟨Task.idleTime (view s), s, []⟩)
    (platform : Handler (Platform η) ω) {p : Powered κ η ω} (led : start.Led happened p.manager) (use : Use η ω) (s : σ) :
    start.Led (happened ++ use.happenings registry view platform p s)
      ((Use.script platform p use).run registry s).answer.2.manager := by
  cases use with
  | postpone =>
    obtain ⟨handle, same⟩ := Script.ensures_run (Manager.ensures_postpone_frame (m := p.manager) (s := s))
    rw [Use.script, Script.answer_map, same]
    exact (List.append_nil happened).symm ▸ led.rehandled handle
  | disarm =>
    obtain ⟨handle, same⟩ := Script.ensures_run (Manager.ensures_disarm_frame (m := p.manager) (s := s))
    rw [Use.script, Script.answer_map, same]
    exact (List.append_nil happened).symm ▸ led.rehandled handle
  | run =>
    obtain ⟨calls, ran, -⟩ := Manager.ends_run (told s) p.manager platform p.platform
    rw [Use.script, Script.answer_map, Script.run_serve, Use.happenings, calls]
    show start.Led (happened ++ [.detected _ _ _ (p.manager.run.run registry platform s p.platform).answer.2])
      (p.manager.run.run registry platform s p.platform).answer.2
    rw [ran]
    exact led.detected (view s)
  | hook next => exact led.hooked next
  | platform change => exact (List.append_nil happened).symm ▸ led

theorem Manager.Led.program (told : ∀ s, registry .idleTime s = ⟨Task.idleTime (view s), s, []⟩)
    (platform : Handler (Platform η) ω) (program : Program κ (Uses η ω) α) {p : Powered κ η ω}
    (led : start.Led happened p.manager) (s : σ) :
    start.Led (happened ++ happenings registry view platform program p s)
      ((attend platform program p).run registry s).answer.2.manager := by
  induction program generalizing happened p s with
  | done a => exact (List.append_nil happened).symm ▸ led
  | ask q next ih => exact ih _ led _
  | call use next ih =>
    rw [attend, Script.run_bind, happenings, ← List.append_assoc]
    exact ih _ (led.use told platform use s) _
  | note line next ih => exact ih led s

end

/-- What can happen to a scheduler whose tasks, and whose owner, work with a power manager. -/
inductive Act (κ η ω : Type) : Type 1 where
  | start (period : Duration)
  | stop
  /-- something that the owner does between ticks -/
  | program {α : Type} (program : Program κ (Uses η ω) α)
  | tick {ρ : Type} (code : κ → ρ → Program κ (Uses η ω) (Except Fault Outcome × ρ)) (shared : ρ)

/-- The code of the tasks, which share the manager and the platform too. -/
def attended (platform : Handler (Platform η) ω) (code : κ → ρ → Program κ (Uses η ω) (Except Fault Outcome × ρ)) :
    TaskCode κ (ρ × Powered κ η ω) := fun key (shared, p) => do
  let ran ← attend platform (code key shared) p
  return (ran.1.1, ran.1.2, ran.2)

variable [ToString κ]

/-- What happens as the tasks of a tick run. -/
def sweepHappenings (platform : Handler (Platform η) ω)
    (code : κ → ρ → Program κ (Uses η ω) (Except Fault Outcome × ρ)) (uptime : Duration) :
    List (Task κ) → Sweep κ (ρ × Powered κ η ω) → List (Happening κ η)
  | [], _ => []
  | t :: rest, sweep =>
    if t.isDue then
      happenings Pass.registry Pass.survivors platform (code t.key sweep.shared.1) sweep.shared.2
          { sweep.pass with waiting := t :: rest } ++
        sweepHappenings platform code uptime rest (sweep.dispatch (attended platform code) uptime t rest).state
    else sweepHappenings platform code uptime rest (sweep.skip t rest)

theorem Manager.Led.through {start : Manager κ η} (platform : Handler (Platform η) ω)
    (code : κ → ρ → Program κ (Uses η ω) (Except Fault Outcome × ρ)) (uptime : Duration) (tasks : List (Task κ))
    {sweep : Sweep κ (ρ × Powered κ η ω)} {happened : List (Happening κ η)}
    (led : start.Led happened sweep.shared.2.manager) :
    start.Led (happened ++ sweepHappenings platform code uptime tasks sweep)
      (Sweep.through (attended platform code) uptime tasks sweep).state.shared.2.manager := by
  induction tasks generalizing sweep happened with
  | nil => exact (List.append_nil happened).symm ▸ led
  | cons t rest ih =>
    rw [Sweep.through, sweepHappenings]
    split
    · rw [← List.append_assoc]
      refine @ih (sweep.dispatch (attended platform code) uptime t rest).state _ ?_
      have told (p : Pass κ) : Pass.registry .idleTime p = ⟨Task.idleTime p.survivors, p, []⟩ := rfl
      have ran := led.program told platform (code t.key sweep.shared.1) { sweep.pass with waiting := t :: rest }
      have left : (Sweep.dispatch (attended platform code) uptime sweep t rest).state.shared.2 =
          ((attend platform (code t.key sweep.shared.1) sweep.shared.2).run Pass.registry
            { sweep.pass with waiting := t :: rest }).answer.2 :=
        congrArg (fun answer : Except Fault Outcome × ρ × Powered κ η ω => answer.2.2) (Script.answer_map ..)
      rw [left]
      exact ran
    · exact @ih (sweep.skip t rest) _ led

variable [TickTimer τ]

/-- A scheduler and a power manager after an action. -/
def act (platform : Handler (Platform η) ω) (now : Scheduler κ τ × Powered κ η ω) :
    Act κ η ω → Scheduler κ τ × Powered κ η ω
  | .start period => ((now.1.start period).state, now.2)
  | .stop => (now.1.stop.state, now.2)
  | .program program =>
    let done := (attend platform program now.2).run Scheduler.registry now.1
    (done.state, done.answer.2)
  | .tick code shared =>
    let ticked := (now.1.tick (attended platform code) (shared, now.2)).state
    (ticked.1, ticked.2.2)

/-- What happens in an action. -/
def actHappenings (platform : Handler (Platform η) ω) (now : Scheduler κ τ × Powered κ η ω) :
    Act κ η ω → List (Happening κ η)
  | .start _ | .stop => []
  | .program program => happenings Scheduler.registry (·.tasks) platform program now.2 now.1
  | .tick code shared =>
    if now.1.active then
      sweepHappenings platform code (now.1.uptime + now.1.period) now.1.aged
        { pass := now.1.firstPass, events := now.1.events, tally := .none, shared := (shared, now.2) }
    else []

/-- What happens in a run. -/
def runHappenings (platform : Handler (Platform η) ω) :
    Scheduler κ τ × Powered κ η ω → List (Act κ η ω) → List (Happening κ η)
  | _, [] => []
  | now, a :: rest => actHappenings platform now a ++ runHappenings platform (act platform now a) rest

theorem Manager.Led.action {start : Manager κ η} (platform : Handler (Platform η) ω)
    {now : Scheduler κ τ × Powered κ η ω} {happened : List (Happening κ η)} (led : start.Led happened now.2.manager)
    (a : Act κ η ω) :
    start.Led (happened ++ actHappenings platform now a) (act platform now a).2.manager := by
  cases a with
  | start period => exact (List.append_nil happened).symm ▸ led
  | stop => exact (List.append_nil happened).symm ▸ led
  | program program =>
    have told (s : Scheduler κ τ) : Scheduler.registry .idleTime s = ⟨Task.idleTime s.tasks, s, []⟩ := rfl
    exact led.program told platform program now.1
  | tick code shared =>
    rw [actHappenings, act]
    cases active : now.1.active with
    | false =>
      rw [(now.1.tick_stopped active _ _).1]
      exact (List.append_nil happened).symm ▸ led
    | true =>
      rw [(now.1.tick_active active _ _).1]
      exact led.through platform code _ _

theorem Manager.Led.run {start : Manager κ η} (platform : Handler (Platform η) ω)
    {now : Scheduler κ τ × Powered κ η ω} {happened : List (Happening κ η)} (led : start.Led happened now.2.manager)
    (actions : List (Act κ η ω)) :
    start.Led (happened ++ runHappenings platform now actions) (actions.foldl (act platform) now).2.manager := by
  induction actions generalizing now happened with
  | nil => exact (List.append_nil happened).symm ▸ led
  | cons a rest ih =>
    rw [runHappenings, ← List.append_assoc]
    exact ih (led.action platform a)

/-- In every run of a scheduler with a power manager, whatever hooks are installed, replaced and cleared on
the way and whether they fail or not, each run of idle detection makes just the calls that the tasks left at
that moment ask for: none where a visible one has at most the threshold left, and else the hook installed
last, if there is one, and one sleep request, both for the least time left of the visible tasks, which is
forever where there are none. Nothing else of the manager changes in it but the count of sleep requests, which
is the number of times the platform was sent to sleep, modulo the numbers there are. -/
theorem idle_detection_sleeps_when_idle (platform : Handler (Platform η) ω) (key : κ) (config : Config) (w : ω)
    (capacity : Nat) (timer : τ) (actions : List (Act κ η ω)) :
    let start := ((.empty capacity timer : Scheduler κ τ), (⟨.idle key config, w⟩ : Powered κ η ω))
    let happened := runHappenings platform start actions
    (∀ earlier before view calls after later, happened = earlier ++ .detected before view calls after :: later →
      before.config = config ∧ before.hook = Happening.lastHook none earlier ∧ before.Detects view calls ∧
        before.requests = UInt32.ofNat (Happening.sleeps earlier) ∧
        after = { before with requests := after.requests }) ∧
    (actions.foldl (act platform) start).2.manager.requests = UInt32.ofNat (Happening.sleeps happened) := by
  intro start happened
  have begun : Manager.Led (.idle key config) [] start.2.manager := .begun
  have led : Manager.Led (.idle key config) happened (actions.foldl (act platform) start).2.manager :=
    begun.run platform actions
  refine ⟨fun earlier before view calls after later parts => ?_, ?_⟩
  · obtain ⟨same, hook, requests, detects, left⟩ := led.ran earlier before view calls after later parts
    exact ⟨same, hook, detects, requests.trans (UInt32.zero_add _), left⟩
  · exact led.requests.trans (UInt32.zero_add _)

/-- A platform on which every hook fails, and which comes back from sleep at once. -/
def unhooked : Handler (Platform Nat) Unit
  | .preSleep hook _, _ => ⟨.error ⟨s!"no hook {hook}"⟩, (), []⟩
  | .sleep _, _ => ⟨(), (), []⟩

/-- Tasks of which one works for the manager and every other replaces the hook. -/
def rehooking : Nat → Unit → Program Nat (Uses Nat Unit) (Except Fault Outcome × Unit)
  | 7, _ => do
    let outcome ← Program.call .run .done
    return (.ok outcome, ())
  | key, _ => do
    Program.call (.hook (some key)) .done
    return (.ok (.again (.ofMillis 50)), ())

/-- A hook is installed, idle detection is armed, and another task replaces the hook before it runs. -/
def rehooked : List (Act Nat Nat Unit) :=
  let installed : Program Nat (Uses Nat Unit) (Except RegistryError Handle) := do
    Program.call (.hook (some 1)) .done
    let _ ← Program.call .postpone .done
    Program.add 2 .zero .visible
  [.start (.ofMillis 10), .program installed] ++ List.replicate 4 (.tick rehooking ())

set_option maxRecDepth 4000 in
theorem idle_detection_sleeps_when_idle_rehooked :
    let config : Config := ⟨.ofMillis 10, .ofMillis 20⟩
    let start := ((.empty 4 .stopped : Scheduler Nat ManualTimer), (⟨.idle 7 config, ()⟩ : Powered Nat Nat Unit))
    let happened := runHappenings unhooked start rehooked
    let before : Manager Nat Nat := ⟨7, config, some ⟨1⟩, some 2, 0⟩
    let view : List (Task Nat) :=
      [⟨⟨1⟩, 7, .ofMillis 20, .ofMillis 10, .hidden⟩, ⟨⟨2⟩, 2, .ofMillis 10, .ofMillis 50, .visible⟩]
    let calls := [.preSleep 2 (.lasting (.ofMillis 40)), .sleep ⟨some (.ofMillis 40)⟩]
    happened = [.hooked (some 1), .hooked (some 2)] ++
        .detected before view calls { before with requests := 1 } :: happened.drop 3 ∧
      before.Detects view calls ∧ (rehooked.foldl (act unhooked) start).2.manager.requests = 1 := by
  obtain ⟨each, counted⟩ := idle_detection_sleeps_when_idle unhooked 7 ⟨.ofMillis 10, .ofMillis 20⟩ () 4
    ManualTimer.stopped rehooked
  exact ⟨rfl, (each [.hooked (some 1), .hooked (some 2)] _ _ _ _ _ rfl).2.2.1, counted.trans rfl⟩

end Power
end ConferenceBadge
