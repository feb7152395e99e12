import ConferenceBadge.Proofs.Badge.Ownership
import ConferenceBadge.Proofs.Badge.SleepRequest
import ConferenceBadge.Proofs.Badge.Ticks

/-!
How long a badge waits for input. What happens to a badge is a list of moments: boots, inputs and ticks.
A badge is patient if idle detection runs just when the response time has been exceeded since it was last
armed, and never asks for sleep sooner than that after an input (`Patient`). Its task has then waited for
just the time since it was armed (`Waits`), which every boot, input and tick keeps.
-/
namespace ConferenceBadge

/-- What happens to a badge that is awake, as far as idle detection goes. -/
inductive Moment where
  | booted
  | pressed
  /-- a tick that is processed: whether idle detection ran in it, and whether it asked for sleep -/
  | ticked (period : Duration) (ran asked : Bool)
deriving DecidableEq

namespace Moment

def period : Moment → Duration
  | booted | pressed => .zero
  | ticked period .. => period

def isInput : Moment → Bool
  | booted | pressed => true
  | ticked .. => false

/-- A moment from which idle detection waits anew: a boot, an input or a run of its own. -/
def arms : Moment → Bool
  | booted | pressed => true
  | ticked _ ran _ => ran

/-- The tick time after the last moment of a kind. -/
def since (kind : Moment → Bool) (moments : List Moment) : Duration :=
  .total ((moments.reverse.takeWhile fun m => !kind m).map period)

theorem since_append_one (kind : Moment → Bool) (moments : List Moment) (m : Moment) :
    since kind (moments ++ [m]) = if kind m then .zero else since kind moments + m.period := by
  simp only [since, List.reverse_append, List.reverse_singleton, List.singleton_append, List.takeWhile_cons]
  cases kind m with
  | true => rfl
  | false => exact Duration.add_comm _ _

/-- Every input arms idle detection. -/
theorem since_arms_le (moments : List Moment) : since arms moments ≤ since isInput moments := by
  induction moments using List.reverseRecOn with
  | nil => exact Nat.le_refl _
  | append_singleton earlier m ih =>
    rw [since_append_one, since_append_one]
    cases m with
    | booted => exact Nat.le_refl _
    | pressed => exact Nat.le_refl _
    | ticked period ran asked =>
      cases ran with
      | true => exact Nat.zero_le _
      | false => exact Duration.add_le_add_right ih period

end Moment

/-- A badge with a response time is patient: it asks for sleep only in a tick with which the tick time
since the last input or boot exceeds the response time; and unless the response time is zero, idle
detection runs just in those ticks with which the tick time since it was last armed exceeds it. -/
structure Patient (response : Duration) (moments : List Moment) : Prop where
  asks : ∀ before period ran, before ++ [.ticked period ran true] <+: moments →
    response < Moment.since Moment.isInput before + period
  runs : response ≠ .zero → ∀ before period ran asked, before ++ [.ticked period ran asked] <+: moments →
    (ran = true ↔ response < Moment.since Moment.arms before + period)

namespace Patient

variable {response : Duration} {moments : List Moment}

theorem nil : Patient response [] := by
  constructor
  · intro before period ran first
    simp at first
  · intro _ before period ran asked first
    simp at first

theorem input (patient : Patient response moments) {m : Moment} (input : m.isInput = true) :
    Patient response (moments ++ [m]) := by
  have other {before : List Moment} {period : Duration} {ran asked : Bool}
      (first : before ++ [.ticked period ran asked] <+: moments ++ [m]) :
      before ++ [.ticked period ran asked] <+: moments := by
    rcases List.prefix_concat_iff.mp first with same | earlier
    · obtain ⟨-, last⟩ := List.append_inj' same rfl
      obtain rfl := List.singleton_inj.mp last
      contradiction
    · exact earlier
  exact ⟨fun before period ran first => patient.asks before period ran (other first),
    fun responsive before period ran asked first => patient.runs responsive before period ran asked (other first)⟩

theorem ticked (patient : Patient response moments) {period : Duration} {ran asked : Bool}
    (asks : asked = true → response < Moment.since Moment.isInput moments + period)
    (runs : response ≠ .zero → (ran = true ↔ response < Moment.since Moment.arms moments + period)) :
    Patient response (moments ++ [.ticked period ran asked]) := by
  constructor
  · intro before length did first
    rcases List.prefix_concat_iff.mp first with same | earlier
    · obtain ⟨rfl, last⟩ := List.append_inj' same rfl
      cases last
      exact asks rfl
    · exact patient.asks before length did earlier
  · intro responsive before length did wanted first
    rcases List.prefix_concat_iff.mp first with same | earlier
    · obtain ⟨rfl, last⟩ := List.append_inj' same rfl
      cases last
      exact runs responsive
    · exact patient.runs responsive before length did wanted earlier

end Patient

namespace Scheduler

variable {κ τ ρ : Type} [ToString κ] [DecidableEq κ]

/-- Whether a task of a key runs in a tick. -/
def runs (s : Scheduler κ τ) (key : κ) (code : TaskCode κ ρ) (shared : ρ) : Bool :=
  (s.lastPass code shared).entries.any fun e => e.task.key = key && e.ran

/-- A key runs where a task of it is due. -/
theorem runs_iff {s : Scheduler κ τ} {key : κ} {code : TaskCode κ ρ} {shared : ρ} :
    s.runs key code shared = true ↔ ∃ t ∈ s.tasks, t.key = key ∧ (t.aged s.period).isDue = true := by
  have same : s.runs key code shared =
      ((s.lastPass code shared).entries.map fun e => (e.task, e.ran)).any fun ran => ran.1.key = key && ran.2 := by
    rw [runs, List.any_map]
    rfl
  rw [same, ran_lastPass, aged, List.map_map, List.any_map, List.any_eq_true]
  simp only [Function.comp_apply, Bool.and_eq_true, decide_eq_true_eq]
  rfl

end Scheduler

/-- What a tick adds to the moments of a badge; a stopped scheduler processes none. -/
def Scheduler.moments {τ ρ : Type} (s : Scheduler Key τ) (ledger : ρ → Ledger) (code : TaskCode Key ρ) (shared : ρ) :
    List Moment :=
  let last := ledger (s.tick code shared).state.2
  let asked := last.requests ≠ (ledger shared).requests ∨ last.sleep ≠ (ledger shared).sleep
  if s.active then [.ticked s.period (s.runs .power code shared) (decide asked)] else []

/-- Where a badge has come to after some moments: it has been patient, its tasks have handles of their
own, and idle detection waits for the response time and has waited since it was armed. -/
structure Waits (response : Duration) (moments : List Moment) (tasks : List (Task Key)) : Prop where
  patient : Patient response moments
  handles : response ≠ .zero → (tasks.map (·.handle)).Nodup
  power : response ≠ .zero → ∀ t ∈ tasks, t.key = .power →
    t.target = response ∧ t.position = Moment.since Moment.arms moments

namespace Waits

variable {η σ τ ρ : Type} {m : Power.Manager Key η} {s : Scheduler Key τ} {moments : List Moment}

theorem booted {most : Nat} {r : Service.Roster σ} (patient : Patient m.config.responseTime moments)
    (services : r.Started most s) (idle : m.handle = none) :
    Waits m.config.responseTime (moments ++ [.booted]) (Script.run Scheduler.registry m.postpone s).state.tasks := by
  obtain ⟨-, state⟩ := Power.Manager.run_postpone_idle idle services.vacant
  obtain ⟨-, tasks, -⟩ := Scheduler.add_vacant services.vacant m.key m.config.responseTime .hidden
  rw [state]
  refine ⟨patient.input rfl, fun _ => ?_, fun _ t member power => ?_⟩
  · exact (services.sound.grown services.vacant services.few _ _ _).distinct
  · rw [tasks] at member
    rcases List.mem_append.mp member with old | new
    · have owned := (services.agree.registered t old).1
      rw [power] at owned
      contradiction
    · obtain rfl := List.mem_singleton.mp new
      rw [Moment.since_append_one]
      exact ⟨rfl, rfl⟩

theorem pressed {owner : Key → Option Handle} (waits : Waits m.config.responseTime moments s.tasks)
    (owned : m.config.responseTime ≠ .zero → OwnersAgree s.tasks Key.visibility owner ∧ ∃ handle, m.handle = some handle)
    (keeps : owner .power = m.handle) :
    Waits m.config.responseTime (moments ++ [.pressed]) (Script.run Scheduler.registry m.postpone s).state.tasks := by
  have rearmed (responsive : m.config.responseTime ≠ .zero) : ∃ handle, m.handle = some handle ∧
      (Script.run Scheduler.registry m.postpone s).state.tasks =
        Scheduler.restartFirst handle m.config.responseTime s.tasks ∧
      ∀ t ∈ s.tasks, t.key = .power → handle = t.handle := by
    obtain ⟨agree, handle, armed⟩ := owned responsive
    have same : ∀ t ∈ s.tasks, t.key = .power → handle = t.handle := by
      intro t member power
      have known := (agree.registered t member).1
      rw [power, keeps, armed] at known
      exact Option.some.inj known
    obtain ⟨t, member, power⟩ := agree.kept .power handle (keeps.trans armed)
    have there : s.contains handle = true :=
      Scheduler.contains_iff.mpr (List.mem_map.mpr ⟨t, member, (same t member power).symm⟩)
    obtain ⟨-, state⟩ := Power.Manager.run_postpone_armed armed there
    rw [state, Scheduler.tasks_update]
    exact ⟨handle, armed, rfl, same⟩
  refine ⟨waits.patient.input rfl, fun responsive => ?_, fun responsive t member power => ?_⟩
  · obtain ⟨handle, -, tasks, -⟩ := rearmed responsive
    rw [tasks, Scheduler.handles_restartFirst]
    exact waits.handles responsive
  · obtain ⟨handle, -, tasks, same⟩ := rearmed responsive
    rw [tasks, Scheduler.restartFirst_eq_filterMap handle _ (waits.handles responsive)] at member
    obtain ⟨u, there, left⟩ := List.mem_filterMap.mp member
    obtain rfl := Option.some.inj left
    -- With distinct handles the task that was put off is that of idle detection, whose handle is kept.
    split at power
    · next named =>
      rw [if_pos named, Moment.since_append_one]
      exact ⟨rfl, rfl⟩
    · next other => exact absurd (same u there power) other

end Waits

namespace Conducts

variable {ρ τ : Type} {display : Bool} {ledger : ρ → Ledger} {code : TaskCode Key ρ}

theorem handles_tick (conducts : Conducts display ledger code) (s : Scheduler Key τ) {shared : ρ}
    (steady : (ledger shared).Steady display) :
    ((s.tick code shared).state.1.tasks.map (·.handle)).Sublist (s.tasks.map (·.handle)) := by
  cases active : s.active with
  | false => rw [(s.tick_stopped active code shared).1]
  | true =>
    have fewer := conducts.tick active steady
      (motive := fun kept rest _ _ => ((kept ++ rest).map (·.handle)).Sublist (s.tasks.map (·.handle)))
      (by
        rintro kept t rest l tally early before
        rwa [List.append_cons] at before)
      (by
        rintro kept t rest l tally settlement due - - before
        refine List.Sublist.trans ?_ before
        rw [List.append_assoc, List.map_append, List.map_append, List.map_append]
        refine List.Sublist.append_left ?_ _
        cases settlement with
        | again target => exact List.Sublist.refl _
        | removed => exact List.sublist_cons_self _ _
        | faulted => exact List.sublist_cons_self _ _)
      (by simp [Scheduler.aged, Function.comp_def, Task.aged])
    rwa [List.append_nil] at fewer

/-- What a tick makes of the tasks of idle detection: those that have waited beyond the response time wait
anew, the others go on waiting. -/
theorem waits_tick (conducts : Conducts display ledger code) {s : Scheduler Key τ} (active : s.active = true)
    {shared : ρ} (steady : (ledger shared).Steady display) {response since : Duration}
    (config : (ledger shared).config.responseTime = response) (responsive : response ≠ .zero)
    (waits : ∀ t ∈ s.tasks, t.key = .power → t.target = response ∧ t.position = since) :
    ∀ t ∈ (s.tick code shared).state.1.tasks, t.key = .power →
      t.target = response ∧ t.position = if response < since + s.period then .zero else since + s.period := by
  refine (conducts.tick active steady
    (motive := fun kept rest l _ => l.config.responseTime = response ∧
      (∀ t ∈ kept, t.key = .power →
        t.target = response ∧ t.position = if response < since + s.period then .zero else since + s.period) ∧
      ∀ t ∈ rest, t.key = .power → t.target = response ∧ t.position = since + s.period)
    ?skipped ?dispatched ⟨config, fun t member => absurd member List.not_mem_nil, ?first⟩).2.1
  case first =>
    intro t member power
    obtain ⟨u, there, rfl⟩ := List.mem_map.mp member
    obtain ⟨target, position⟩ := waits u there power
    exact ⟨target, congrArg (· + s.period) position⟩
  case skipped =>
    rintro kept t rest l tally early ⟨config, before, ahead⟩
    refine ⟨config, ?_, fun u member => ahead u (List.mem_cons_of_mem t member)⟩
    intro u member power
    rcases List.mem_append.mp member with old | new
    · exact before u old power
    · obtain rfl := List.mem_singleton.mp new
      obtain ⟨target, position⟩ := ahead u List.mem_cons_self power
      have patient : ¬ response < since + s.period := by
        rw [← target, ← position]
        exact of_decide_eq_false early
      rw [if_neg patient]
      exact ⟨target, position⟩
  case dispatched =>
    rintro kept t rest l tally settlement due again - ⟨config, before, ahead⟩
    refine ⟨Ledger.config_after.symm ▸ config, ?_, fun u member => ahead u (List.mem_cons_of_mem t member)⟩
    intro u member power
    rcases List.mem_append.mp member with old | new
    · exact before u old power
    · -- The task of idle detection comes back for the response time.
      have left : Entry.survivor? ⟨t, some settlement⟩ = some u := Option.mem_toList.mp new
      have same : t.key = .power := (congrArg Prod.fst (Pass.identity_of_survivor? left)).symm.trans power
      rw [again same, config, Settlement.ofRun_again responsive] at left
      obtain rfl := Option.some.inj left
      obtain ⟨target, position⟩ := ahead t List.mem_cons_self same
      have exceeded : response < since + s.period := by
        rw [← target, ← position]
        exact of_decide_eq_true due
      rw [if_pos exceeded]
      exact ⟨rfl, rfl⟩

end Conducts

/-- Idle detection runs in a tick just where it has waited beyond the response time. -/
theorem Waits.runs_iff {ρ τ : Type} {s : Scheduler Key τ} {response : Duration} {moments : List Moment}
    (waits : Waits response moments s.tasks) (owned : ∃ t ∈ s.tasks, t.key = .power) (responsive : response ≠ .zero)
    (code : TaskCode Key ρ) (shared : ρ) :
    s.runs .power code shared = true ↔ response < Moment.since Moment.arms moments + s.period := by
  rw [Scheduler.runs_iff]
  constructor
  · rintro ⟨t, member, power, due⟩
    obtain ⟨target, position⟩ := waits.power responsive t member power
    rw [← target, ← position]
    exact of_decide_eq_true due
  · intro exceeded
    obtain ⟨t, member, power⟩ := owned
    obtain ⟨target, position⟩ := waits.power responsive t member power
    rw [← target, ← position] at exceeded
    exact ⟨t, member, power, decide_eq_true exceeded⟩

/-- A tick of a badge keeps it patient. -/
theorem Waits.ticked {ρ τ : Type} {display : Bool} {ledger : ρ → Ledger} {code : TaskCode Key ρ}
    (conducts : Conducts display ledger code) {s : Scheduler Key τ} {shared : ρ}
    (steady : (ledger shared).Steady display) (lasting : Scheduler.shortestPeriod ≤ s.period)
    {response : Duration} (config : (ledger shared).config.responseTime = response)
    (owned : response ≠ .zero → ∃ t ∈ s.tasks, t.key = .power)
    {moments : List Moment} (waits : Waits response moments s.tasks) :
    Waits response (moments ++ s.moments ledger code shared) (s.tick code shared).state.1.tasks := by
  cases active : s.active with
  | false =>
    simp only [Scheduler.moments, active, Bool.false_eq_true, ↓reduceIte, List.append_nil]
    rw [(s.tick_stopped active code shared).1]
    exact waits
  | true =>
    simp only [Scheduler.moments, active, ↓reduceIte]
    have runs (responsive : response ≠ .zero) := waits.runs_iff (owned responsive) responsive code shared
    refine ⟨waits.patient.ticked ?_ runs, fun responsive => ?_, fun responsive => ?_⟩
    · intro asked
      by_cases responsive : response = .zero
      · -- Any tick exceeds a response time of zero, since none is that short.
        rw [responsive]
        have bound : Scheduler.shortestPeriod ≤ Moment.since Moment.isInput moments + s.period := by
          rw [Duration.add_comm]
          exact Nat.le_trans lasting (Duration.le_add_right _ _)
        exact Duration.lt_of_lt_of_le (by decide) bound
      · -- Idle detection ran, and it had been armed no later than at the last input.
        have fits := conducts.sleepFits s steady (of_decide_eq_true asked)
        have exceeded := (runs responsive).mp (Scheduler.runs_iff.mpr fits.due)
        exact Duration.lt_of_lt_of_le exceeded (Duration.add_le_add_right (Moment.since_arms_le moments) s.period)
    · exact (conducts.handles_tick s steady).nodup (waits.handles responsive)
    · rw [Moment.since_append_one]
      simp only [Moment.arms, Moment.period, runs responsive]
      exact conducts.waits_tick active steady config responsive (waits.power responsive)

namespace Emulator

variable {power : Power.Config} {e : Emulator} {earlier : List Moment}

def moments (e : Emulator) (now : Int) : List Moment :=
  e.scheduler.moments SharedState.ledger (SharedState.code now) e.shared

theorem waits_boot (patient : Patient power.responseTime earlier) (store : AppStore) (now : Int) (radio : Radio)
    (period : Duration) :
    Waits power.responseTime (earlier ++ [.booted]) (boot store now radio power period).state.scheduler.tasks := by
  obtain ⟨started, same, manager, services, -⟩ := boot_started store now radio power period
  have idle : started.manager.handle = none := by rw [manager]; rfl
  have response : started.manager.config.responseTime = power.responseTime := by rw [manager]; rfl
  rw [← response] at patient
  rw [same, ← response]
  exact Waits.booted patient services idle

theorem Reached.waits_tick (reached : Reached power e) (waits : Waits power.responseTime earlier e.scheduler.tasks)
    (now : Int) : Waits power.responseTime (earlier ++ e.moments now) (e.tick now).state.scheduler.tasks := by
  obtain ⟨config, steady⟩ := reached.steady
  refine waits.ticked (SharedState.conducts now) steady reached.ticks.lasting (congrArg _ config) fun responsive => ?_
  obtain ⟨agree, ⟨handle, armed⟩, -⟩ := reached.ownersAgree responsive
  exact agree.kept .power handle armed

theorem Reached.waits_press (reached : Reached power e) (waits : Waits power.responseTime earlier e.scheduler.tasks) :
    Waits power.responseTime (earlier ++ [.pressed]) e.press.state.scheduler.tasks := by
  obtain ⟨rfl, -⟩ := reached.steady
  refine waits.pressed (fun responsive => ?_) (rfl : e.ledger.owner .power = e.manager.handle)
  obtain ⟨agree, armed, -⟩ := reached.ownersAgree responsive
  exact ⟨agree, armed⟩

end Emulator

namespace Board.Badge

/-- What can happen to the badge on its board after boot. -/
inductive Step where
  | tick | press | takeSleep
deriving DecidableEq

def step (b : Badge) : Step → Badge
  | .tick => b.tick.state
  | .press => b.press.state
  | .takeSleep => b.takeSleep.state

/-- What a step adds to the moments of the badge on its board. -/
def stepMoments (b : Badge) : Step → List Moment
  | .tick => b.scheduler.moments SharedState.ledger SharedState.code b.shared
  | .press => [.pressed]
  | .takeSleep => []

/-- The moments of some steps, one after the other. -/
def moments : Badge → List Step → List Moment
  | _, [] => []
  | b, a :: rest => b.stepMoments a ++ (b.step a).moments rest

variable {power : Power.Config} {b : Badge} {earlier : List Moment}

theorem waits_boot (period : PublishedPeriod) (counters : Counters) (power : Power.Config) :
    Waits power.responseTime [.booted] (boot period counters power).state.scheduler.tasks := by
  obtain ⟨started, same, manager, services, -⟩ := boot_started period counters power
  have idle : started.shared.manager.handle = none := by rw [manager]; rfl
  have response : started.shared.manager.config.responseTime = power.responseTime := by rw [manager]; rfl
  rw [same, ← response]
  exact Waits.booted .nil services idle

theorem Reached.stepped (reached : Reached power b) (a : Step) : Reached power (b.step a) := by
  cases a with
  | tick => exact reached.ticked
  | press => exact reached.pressed
  | takeSleep => exact reached.slept

theorem Reached.waits_step (reached : Reached power b) (waits : Waits power.responseTime earlier b.scheduler.tasks)
    (a : Step) : Waits power.responseTime (earlier ++ b.stepMoments a) (b.step a).scheduler.tasks := by
  obtain ⟨rfl, steady⟩ := reached.steady
  cases a with
  | tick =>
    refine waits.ticked SharedState.conducts steady reached.lasting rfl fun responsive => ?_
    obtain ⟨agree, ⟨handle, armed⟩, -⟩ := reached.ownersAgree responsive
    exact agree.kept .power handle armed
  | press =>
    refine waits.pressed (fun responsive => ?_) (rfl : b.ledger.owner .power = b.shared.manager.handle)
    obtain ⟨agree, armed, -⟩ := reached.ownersAgree responsive
    exact ⟨agree, armed⟩
  | takeSleep =>
    rw [stepMoments, List.append_nil, step, b.takeSleep_frame.1]
    exact waits

/-- The badge on its board is patient whatever happens to it. -/
theorem Reached.patient (reached : Reached power b) (waits : Waits power.responseTime earlier b.scheduler.tasks)
    (steps : List Step) : Patient power.responseTime (earlier ++ b.moments steps) := by
  induction steps generalizing b earlier with
  | nil =>
    rw [moments, List.append_nil]
    exact waits.patient
  | cons a rest ih =>
    rw [moments, ← List.append_assoc]
    exact ih (reached.stepped a) (reached.waits_step waits a)

end Board.Badge

end ConferenceBadge
