import ConferenceBadge.Proofs.Power.Turns
import ConferenceBadge.Proofs.Secured

/-!
The one task of a power manager. Whatever other code does to it, and whatever is refused, a task under
the manager's key is hidden and is the one whose handle the manager keeps (`Manager.Tracks`). Handles
name one task each, so there is never a second one: putting idle detection off registers no task while
there is one, and ending it removes the one there is (`one_idle_detection_task`).
-/
namespace ConferenceBadge

variable {κ η τ σ : Type}

namespace Power

namespace Manager

/-- Tasks under the manager's key are hidden and have the handle that the manager keeps. -/
def Tracks (m : Manager κ η) (tasks : List (Task κ)) : Prop :=
  ∀ t ∈ tasks, t.key = m.key → t.visibility = .hidden ∧ m.handle = some t.handle

variable {m : Manager κ η} {tasks others : List (Task κ)}

theorem Tracks.of_identity (tracks : m.Tracks tasks) (known : ∀ u ∈ others, ∃ t ∈ tasks, u.identity = t.identity) :
    m.Tracks others := by
  intro u member mine
  obtain ⟨t, there, same⟩ := known u member
  simp only [Task.identity, Prod.mk.injEq] at same
  obtain ⟨key, handle, visibility⟩ := same
  rw [handle, visibility]
  exact tracks t there (key.symm.trans mine)

theorem tracks_of_absent (absent : ∀ t ∈ tasks, t.key ≠ m.key) : m.Tracks tasks :=
  fun t member mine => absurd mine (absent t member)

/-- Whatever others are answered, the manager's task stays tracked. -/
theorem Tracks.leaves (tracks : m.Tracks tasks) {e : Exchange κ}
    (spares : ∀ target visibility, e.1 ≠ .add m.key target visibility) : m.Tracks (e.leaves tasks) := by
  unfold Exchange.leaves
  split
  · exact tracks
  · next c promised =>
    intro u member mine
    rcases List.mem_append.mp member with kept | added
    · obtain ⟨t, there, left⟩ := List.mem_filterMap.mp kept
      have one : m.Tracks [u] := tracks.of_identity fun u' same =>
        ⟨t, there, List.mem_singleton.mp same ▸ Change.identity_of_applied? left⟩
      exact one u List.mem_cons_self mine
    · obtain ⟨target, visibility, asked⟩ := Exchange.asked_of_added promised (Option.mem_toList.mp added)
      rw [asked, mine] at spares
      exact absurd rfl (spares target visibility)

theorem Tracks.absent_of_none (tracks : m.Tracks tasks) (none : m.handle = none) : ∀ t ∈ tasks, t.key ≠ m.key := by
  intro t member mine
  have known := (tracks t member mine).2
  rw [none] at known
  contradiction

theorem Tracks.absent_of_denied (tracks : m.Tracks tasks) {handle : Handle} (kept : m.handle = some handle)
    (denied : Exchange.Truthful ⟨.contains handle, false⟩ tasks) : ∀ t ∈ tasks, t.key ≠ m.key := by
  intro t member mine
  obtain rfl := Option.some.inj (kept.symm.trans (tracks t member mine).2)
  exact absurd (denied.mpr (List.mem_map_of_mem member)) Bool.false_ne_true

theorem Tracks.absent_of_deleted (tracks : m.Tracks tasks) {handle : Handle} (kept : m.handle = some handle) :
    ∀ t ∈ Exchange.leaves ⟨.delete handle, true⟩ tasks, t.key ≠ m.key := by
  intro t member mine
  have rest : Exchange.leaves ⟨.delete handle, true⟩ tasks = tasks.filterMap (Change.applied? · (.delete handle)) :=
    List.append_nil _
  rw [rest] at member
  obtain ⟨before, there, left⟩ := List.mem_filterMap.mp member
  have same := congrArg Prod.fst (Change.identity_of_applied? left)
  have known := (tracks before there (same.symm.trans mine)).2
  rw [kept] at known
  have gone : Change.applied? before (.delete handle) = none := if_pos (Option.some.inj known)
  rw [gone] at left
  contradiction

theorem secures_arm (absent : ∀ t ∈ tasks, t.key ≠ m.key) :
    Program.Secures (fun r after => r.2.key = m.key ∧ r.2.Tracks after) (m.arm : Script κ _) tasks := by
  unfold arm
  refine Program.secures_bind.mpr ?_
  intro answer _
  cases answer with
  | error e => exact ⟨rfl, tracks_of_absent absent⟩
  | ok handle =>
    refine ⟨rfl, ?_⟩
    intro t member mine
    simp only [Exchange.leaves, Exchange.change?] at member
    rcases List.mem_append.mp member with old | new
    · rw [show tasks.filterMap (Change.applied? · (.add _)) = tasks from List.filterMap_some] at old
      exact absurd mine (absent t old)
    · obtain rfl := List.mem_singleton.mp new
      exact ⟨rfl, rfl⟩

theorem secures_postpone (tracks : m.Tracks tasks) :
    Program.Secures (fun r after => r.2.key = m.key ∧ r.2.Tracks after) (m.postpone : Script κ _) tasks := by
  unfold postpone
  split
  · next none => exact secures_arm (tracks.absent_of_none none)
  · next handle kept =>
    refine Program.secures_bind.mpr ?_
    intro updated _
    cases updated with
    | true => exact ⟨rfl, tracks.leaves fun _ _ => nofun⟩
    | false =>
      -- Refused for want of room, or for want of a task: only the latter lets the manager register one.
      refine Program.secures_bind.mpr ?_
      intro there truthful
      cases there with
      | true => exact ⟨rfl, tracks⟩
      | false => exact secures_arm (tracks.absent_of_denied kept truthful)

/-- The manager's handle goes with its task. Where the task was removed on request, none is left. -/
theorem secures_disarm (tracks : m.Tracks tasks) :
    Program.Secures (fun r after => r.2.key = m.key ∧ r.2.Tracks after ∧ (r.1 = true → ∀ t ∈ after, t.key ≠ m.key))
      (m.disarm : Script κ _) tasks := by
  unfold disarm
  split
  · exact ⟨rfl, tracks, nofun⟩
  · next handle kept =>
    refine Program.secures_bind.mpr ?_
    intro deleted _
    cases deleted with
    | true =>
      have gone := tracks.absent_of_deleted kept
      exact ⟨rfl, tracks_of_absent gone, fun _ => gone⟩
    | false =>
      refine Program.secures_bind.mpr ?_
      intro there truthful
      cases there with
      | true => exact ⟨rfl, tracks, nofun⟩
      | false => exact ⟨rfl, tracks_of_absent (tracks.absent_of_denied kept truthful), nofun⟩

/-- What the manager's task does leaves its handle and the tasks alone. -/
theorem secures_run : Program.Secures (fun r after => (r.2.key = m.key ∧ r.2.handle = m.handle) ∧ after = tasks)
    (m.run : Program κ (Platform η) _) tasks := by
  unfold run
  refine Program.secures_bind.mpr ?_
  intro idle _
  refine Program.secures_bind.mpr (Program.secures_log.mpr ?_)
  cases m.decision idle with
  | stayAwake => exact ⟨⟨rfl, rfl⟩, rfl⟩
  | sleep =>
    unfold goToSleep
    cases m.hook with
    | none => exact fun _ => ⟨⟨rfl, rfl⟩, rfl⟩
    | some hook =>
      refine Program.secures_bind.mpr (Program.secures_bind.mpr ?_)
      intro answer
      cases answer with
      | ok done => exact fun _ => ⟨⟨rfl, rfl⟩, rfl⟩
      | error e => exact fun _ => ⟨⟨rfl, rfl⟩, rfl⟩

/-- Every turn of code that leaves the key to the manager keeps its task tracked. -/
theorem secures_turn (turn : Turn κ η) (tracks : m.Tracks tasks) (spares : turn.Spares m.key) :
    Program.Secures (fun r after => (turn.after m r).key = m.key ∧ (turn.after m r).Tracks after)
      (turn.script m) tasks := by
  cases turn with
  | ask request => exact fun answer _ => ⟨rfl, tracks.leaves spares⟩
  | postpone => exact secures_postpone tracks
  | disarm => exact (secures_disarm tracks).mono fun r after kept => ⟨kept.1, kept.2.1⟩
  | run platform w =>
    refine (Program.secures_serve secures_run platform w).mono ?_
    rintro ran after ⟨⟨key, handle⟩, rfl⟩
    refine ⟨key, fun t member mine => ?_⟩
    have known := tracks t member (mine.trans key)
    rw [← handle] at known
    exact known
  | hook next => exact ⟨rfl, tracks⟩

/-- A manager has at most one task, which it can reach: the task is tracked, putting it off registers no
other, and ending it removes it. -/
structure InCharge (registry : Registry κ σ) (view : σ → List (Task κ)) (m : Manager κ η) (s : σ) : Prop where
  single : (view s).Pairwise fun t u => ¬(t.key = m.key ∧ u.key = m.key)
  tracks : ∀ t ∈ view s, t.key = m.key → t.visibility = .hidden ∧ m.handle = some t.handle
  postponed : ∀ t ∈ view s, t.key = m.key → ∀ e ∈ Script.exchanges registry m.postpone s,
    ∀ target visibility, e.1 ≠ .add m.key target visibility
  disarmed : ∀ t ∈ view s, t.key = m.key → (Script.exchanges registry m.disarm s).head? =
    some ⟨.delete t.handle, (Script.run registry m.disarm s).answer.1⟩
  gone : (Script.run registry m.disarm s).answer.1 = true → ∀ t ∈ view (Script.run registry m.disarm s).state, t.key ≠ m.key

section
variable {registry : Registry κ σ} {view : σ → List (Task κ)} {sound : Nat → σ → Prop} {n : Nat} {s : σ}

theorem disarm_eq {handle : Handle} (kept : m.handle = some handle) :
    (m.disarm : Script κ _) = .ask (.delete handle) fun deleted =>
      if deleted then .done (true, { m with handle := none })
      else .ask (.contains handle) fun there => .done (false, if there then m else { m with handle := none }) := by
  simp only [disarm, kept]
  refine congrArg (Program.ask _) (funext fun deleted => ?_)
  cases deleted with
  | true => rfl
  | false =>
    refine congrArg (Program.ask _) (funext fun there => ?_)
    cases there <;> rfl

theorem postpone_eq {handle : Handle} (kept : m.handle = some handle) :
    (m.postpone : Script κ _) = .ask (.update handle m.config.responseTime) fun updated =>
      if updated then .done (.ok handle, m)
      else .ask (.contains handle) fun there => if there then .done (.error .changesetFull, m) else m.arm := by
  simp only [postpone, kept]
  refine congrArg (Program.ask _) (funext fun updated => ?_)
  cases updated with
  | true => rfl
  | false =>
    refine congrArg (Program.ask _) (funext fun there => ?_)
    cases there <;> rfl

theorem answer_disarm {handle : Handle} (kept : m.handle = some handle) (s : σ) :
    (Script.run registry m.disarm s).answer.1 = (registry (.delete handle) s).answer := by
  rw [disarm_eq kept, Script.answer_ask]
  cases (registry (.delete handle) s).answer <;> rfl

theorem exchanges_disarm {handle : Handle} (kept : m.handle = some handle) (s : σ) :
    Script.exchanges registry m.disarm s = ⟨.delete handle, (registry (.delete handle) s).answer⟩ ::
      if (registry (.delete handle) s).answer then []
      else [⟨.contains handle, (registry (.contains handle) (registry (.delete handle) s).state).answer⟩] := by
  rw [disarm_eq kept, Script.exchanges]
  cases (registry (.delete handle) s).answer <;> rfl

/-- Putting off a task that is there asks for nothing but a new target, and whether the task is there
where that is refused. -/
theorem exchanges_postpone {handle : Handle} (kept : m.handle = some handle)
    (shows : registry.Shows view sound) (known : sound n s) (few : n < Handle.numbers)
    (live : handle ∈ (view s).map (·.handle)) :
    Script.exchanges registry m.postpone s =
      ⟨.update handle m.config.responseTime, (registry (.update handle m.config.responseTime) s).answer⟩ ::
        if (registry (.update handle m.config.responseTime) s).answer then [] else [⟨.contains handle, true⟩] := by
  rw [postpone_eq kept, Script.exchanges]
  cases answered : (registry (.update handle m.config.responseTime) s).answer with
  | true => rfl
  | false =>
    have after := shows.kept (.update handle m.config.responseTime) known (by rw [answered]; exact few)
    have same := shows.leaves (.update handle m.config.responseTime) known
    rw [answered] at after same
    have there : (registry (.contains handle) (registry (.update handle m.config.responseTime) s).state).answer = true :=
      (shows.truthful (.contains handle) after).mpr (same ▸ live)
    show _ :: Script.exchanges registry (.ask (.contains handle) _) _ = _
    rw [Script.exchanges, there]
    rfl

theorem inCharge (shows : registry.Shows view sound) (known : sound n s) (few : n < Handle.numbers)
    (distinct : ((view s).map (·.handle)).Nodup) (tracks : m.Tracks (view s)) : InCharge registry view m s := by
  refine ⟨?_, tracks, ?_, ?_, ?_⟩
  · -- Two tasks under the key would both have the handle that the manager keeps.
    rw [List.Nodup, List.pairwise_map] at distinct
    refine distinct.imp_of_mem ?_
    rintro t u there also other ⟨one, two⟩
    have kept := (tracks t there one).2
    exact other (Option.some.inj (kept.symm.trans (tracks u also two).2))
  · intro t member mine e asked target visibility same
    rw [exchanges_postpone (tracks t member mine).2 shows known few (List.mem_map_of_mem member)] at asked
    rcases List.mem_cons.mp asked with rfl | later
    · contradiction
    · split at later
      · contradiction
      · obtain rfl := List.mem_singleton.mp later
        contradiction
  · intro t member mine
    have kept := (tracks t member mine).2
    rw [exchanges_disarm kept, answer_disarm kept]
    rfl
  · intro removed
    cases kept : m.handle with
    | none =>
      have idle : (Script.run registry m.disarm s).answer.1 = false := by
        simp only [disarm, kept]
        rfl
      rw [idle] at removed
      contradiction
    | some handle =>
      have plain : Exchange.mintedIn (Script.exchanges registry m.disarm s) = 0 := by
        rw [exchanges_disarm kept]
        split <;> rfl
      exact (Script.secures_run shows (secures_disarm tracks) known (by rw [plain]; exact few)).2.2 removed

end

end Manager

variable [ToString κ] {key : κ} {m start : Manager κ η}

theorem Midway.tracks {first p : Pass κ} {history : List (Exchange κ)} {n : Nat} (sound : first.Sound n)
    (mine : start.key = key) (tracks : start.Tracks first.survivors)
    (midway : Midway key first start history m p) (few : n + Exchange.mintedIn history < Handle.numbers) :
    m.key = key ∧ m.Tracks p.survivors := by
  induction midway with
  | begun => exact ⟨mine, tracks⟩
  | @turned history m p turn earlier spares ih =>
    rw [Exchange.mintedIn_append, ← Nat.add_assoc] at few
    obtain ⟨same, before⟩ := ih (by omega)
    have known := sound.underway earlier.underway (by omega)
    have after := Script.secures_run Pass.shows (Manager.secures_turn turn before (same.symm ▸ spares)) known few
    exact ⟨after.1.trans same, after.2⟩
  | skipped earlier head early ih =>
    obtain ⟨same, before⟩ := ih few
    exact ⟨same, before.of_identity fun u left => Pass.identity_survivors_passed head none left⟩
  | settled settlement earlier head due ih =>
    obtain ⟨same, before⟩ := ih few
    exact ⟨same, before.of_identity fun u left => Pass.identity_survivors_passed head (some settlement) left⟩

omit [ToString κ] in
theorem Manager.Tracks.firstPass {s : Scheduler κ τ} (tracks : m.Tracks s.tasks) :
    m.Tracks s.firstPass.survivors := by
  refine tracks.of_identity fun u member => ?_
  rw [s.survivors_firstPass] at member
  obtain ⟨t, there, rfl⟩ := List.mem_map.mp member
  exact ⟨t, there, Task.identity_aged t s.period⟩

namespace Reached

variable [TickTimer τ] {s : Scheduler κ τ} {history : List (Exchange κ)}

theorem sound (reached : Reached key history m s) (few : Exchange.mintedIn history < Handle.numbers) :
    s.Sound (Exchange.mintedIn history) := by
  induction reached with
  | fresh config capacity timer => exact Scheduler.sound_empty capacity timer
  | started period earlier ih => exact (ih few).act (.start period) few
  | stopped earlier ih => exact (ih few).act .stop few
  | turned turn earlier spares ih =>
    rw [Exchange.mintedIn_append] at few ⊢
    exact Scheduler.shows.run (ih (by omega)) _ few
  | ticked tends shared earlier ih =>
    rw [Exchange.mintedIn_append] at few ⊢
    exact (ih (by omega)).act (.tick _ shared) few

theorem tracks (reached : Reached key history m s) (few : Exchange.mintedIn history < Handle.numbers) :
    m.key = key ∧ m.Tracks s.tasks := by
  induction reached with
  | fresh config capacity timer => exact ⟨rfl, fun t member => absurd member List.not_mem_nil⟩
  | @started history m s period earlier ih =>
    rw [(s.start_frame period).1]
    exact ih few
  | stopped earlier ih => exact ih few
  | @turned history m s turn earlier spares ih =>
    rw [Exchange.mintedIn_append] at few
    obtain ⟨same, before⟩ := ih (by omega)
    have known := earlier.sound (by omega)
    have after := Script.secures_run Scheduler.shows (Manager.secures_turn turn before (same.symm ▸ spares)) known few
    exact ⟨after.1.trans same, after.2⟩
  | @ticked history s ρ keeps code tends shared earlier ih =>
    rw [Exchange.mintedIn_append] at few
    obtain ⟨same, before⟩ := ih (by omega)
    have known := earlier.sound (by omega)
    by_cases active : s.active
    · rw [Scheduler.exchanges, if_pos active] at few
      obtain ⟨midway, -⟩ := Midway.swept tends s shared
      have kept : (s.tick code shared).state.2 = (s.swept code shared).state.shared := by
        rw [(s.tick_active active code shared).1]
      rw [known.tasks_tick active code shared few, kept]
      exact midway.tracks known.firstPass same before.firstPass few
    · rw [(s.tick_stopped (by simpa using active) code shared).1]
      exact ⟨same, before⟩

end Reached

/-- In every run in which only the manager registers tasks under its key, and which has not used up the
handles, there is at most one task under the key: between ticks among the tasks that there are, and in
the middle of a tick among those that are left. If there is one, it is hidden, and the handle that the
manager keeps is its handle; so putting it off registers no second one, and ending it removes the one
there is. -/
theorem one_idle_detection_task [TickTimer τ] {s : Scheduler κ τ} {history : List (Exchange κ)}
    (reached : Reached key history m s) (few : Exchange.mintedIn history < Handle.numbers) :
    (m.key = key ∧ m.InCharge Scheduler.registry (·.tasks) s) ∧
      ∀ (during : List (Exchange κ)) (now : Manager κ η) (p : Pass κ), Midway key s.firstPass m during now p →
        Exchange.mintedIn (history ++ during) < Handle.numbers →
        now.key = key ∧ now.InCharge Pass.registry Pass.survivors p := by
  have sound := reached.sound few
  obtain ⟨mine, tracks⟩ := reached.tracks few
  refine ⟨⟨mine, Manager.inCharge Scheduler.shows sound few sound.distinct tracks⟩, ?_⟩
  intro during now p midway unused
  rw [Exchange.mintedIn_append] at unused
  have known := sound.firstPass.underway midway.underway unused
  obtain ⟨same, after⟩ := midway.tracks sound.firstPass mine tracks.firstPass unused
  refine ⟨same, Manager.inCharge Pass.shows known unused ?_ after⟩
  exact p.handles_survivors_sublist.nodup known.distinct

/-- A platform that does not sleep. -/
def sleepless : Handler (Platform Empty) Unit
  | .preSleep hook _, _ => hook.elim
  | .sleep _, _ => ⟨(), (), []⟩

/-- Tasks of which one works for the manager, one ends idle detection and starts it again at once, and
any other removes a task that is not its own and fails. -/
def fidgeting : TaskCode Nat (Manager Nat Empty)
  | 7, m => do
    let ((outcome, m), _) ← m.run.serve sleepless ()
    return (.ok outcome, m)
  | 0, m => do
    let (_, m) ← m.disarm
    let (_, m) ← m.postpone
    return (.ok (.again (.ofSeconds 1)), m)
  | _, m => do
    let _ ← Program.delete ⟨1⟩
    return (.error ⟨"no such task"⟩, m)

theorem tends_fidgeting (key : Nat) (m : Manager Nat Empty) : Tends 7 (·.2) m (fidgeting key m) := by
  unfold fidgeting
  split
  · exact .turn (.run sleepless ()) trivial fun _ => .done _ rfl
  · exact .turn .disarm trivial fun _ => .turn .postpone trivial fun _ => .done _ rfl
  · exact .turn (.ask (.delete ⟨1⟩)) (fun _ _ => nofun) fun _ => .done _ rfl

theorem one_idle_detection_task_fidgeting :
    ∃ (history during : List (Exchange Nat)) (m now : Manager Nat Empty) (s : Scheduler Nat ManualTimer) (p : Pass Nat),
      Reached 7 history m s ∧ Exchange.mintedIn history < Handle.numbers ∧
      Midway 7 s.firstPass m during now p ∧ Exchange.mintedIn (history ++ during) < Handle.numbers ∧
      s.tasks.map (·.identity) = [(0, ⟨2⟩, .visible), (7, ⟨3⟩, .hidden)] ∧
      m.InCharge Scheduler.registry (·.tasks) s ∧
      p.survivors.map (·.identity) = [(0, ⟨2⟩, .visible), (7, ⟨4⟩, .hidden)] ∧
      now.InCharge Pass.registry Pass.survivors p := by
  have idle : Reached 7 [] (Manager.idle 7 .standard : Manager Nat Empty) (.empty 4 ManualTimer.stopped) :=
    .fresh .standard 4 ManualTimer.stopped
  have armed := (idle.started (.ofMillis 10)).turned .postpone trivial
  have joined := armed.turned (.ask (.add 0 .zero .visible)) (fun _ _ => by simp)
  have ticked : Reached 7 _ (Scheduler.tick _ fidgeting _).state.2 _ :=
    @Reached.ticked Nat Empty ManualTimer _ _ 7 _ _ _ id _ tends_fidgeting _ joined
  have again (m : Manager Nat Empty) (first : Pass Nat) :=
    ((Midway.begun : Midway 7 first m [] m first).turned .disarm trivial).turned .postpone trivial
  refine ⟨_, _, _, _, _, _, ticked, ?_, again _ _, ?_, ?_, (one_idle_detection_task ticked ?_).1.2, ?_,
    ((one_idle_detection_task ticked ?_).2 _ _ _ (again _ _) ?_).2⟩
  all_goals decide

end Power
end ConferenceBadge
