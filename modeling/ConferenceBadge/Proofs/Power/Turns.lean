import ConferenceBadge.Power
import ConferenceBadge.Proofs.Scheduler.Run

/-!
Code that works with a power manager. It does so in turns: it asks the registry something of its own,
puts idle detection off or ends it, does what the manager's task does, or changes the hook. It never
registers a task under the manager's key itself. Such code runs between ticks (`Reached`) and as the
tasks of a tick (`Midway`), and every tick of such code is a run of turns and settlements
(`Midway.swept`).
-/
namespace ConferenceBadge

namespace Power

variable {κ η τ ρ α : Type}

/-- One turn of code that works with a power manager. -/
inductive Turn (κ η : Type) : Type 1 where
  /-- asks the registry something of its own -/
  | ask (request : Request κ)
  | postpone
  | disarm
  /-- does what the manager's task does -/
  | run {ω : Type} (platform : Handler (Platform η) ω) (w : ω)
  | hook (hook : Option η)

namespace Turn

@[reducible] def Result : Turn κ η → Type
  | ask request => request.Answer
  | postpone => Except RegistryError Handle × Manager κ η
  | disarm => Bool × Manager κ η
  | @run _ _ ω _ _ => (Outcome × Manager κ η) × ω
  | hook _ => Unit

def script (m : Manager κ η) : (turn : Turn κ η) → Script κ turn.Result
  | ask request => .ask request .done
  | postpone => m.postpone
  | disarm => m.disarm
  | run platform w => m.run.serve platform w
  | hook _ => .done ()

/-- The manager after a turn. -/
def after (m : Manager κ η) : (turn : Turn κ η) → turn.Result → Manager κ η
  | ask _, _ => m
  | postpone, (_, m) => m
  | disarm, (_, m) => m
  | run .., ((_, m), _) => m
  | hook next, _ => m.withHook next

/-- Whether a turn leaves it to the manager to register tasks under a key. -/
def Spares (key : κ) : Turn κ η → Prop
  | ask request => ∀ target visibility, request ≠ .add key target visibility
  | postpone | disarm | run .. | hook _ => True

end Turn

/-- Code that goes in turns, starting from a manager; `keeps` finds the manager in what the code leaves. -/
inductive Tends (key : κ) (keeps : α → Manager κ η) : Manager κ η → Script κ α → Prop
  | done {m : Manager κ η} (a : α) (kept : keeps a = m) : Tends key keeps m (.done a)
  | note (line : Log.Line) {m : Manager κ η} {next : Script κ α} (later : Tends key keeps m next) :
      Tends key keeps m (.note line next)
  | turn (turn : Turn κ η) {m : Manager κ η} {next : turn.Result → Script κ α} (spares : turn.Spares key)
      (later : ∀ result, Tends key keeps (turn.after m result) (next result)) :
      Tends key keeps m (turn.script m >>= next)

variable [ToString κ]

/-- The moments of a tick whose tasks go in turns, with the manager and with what was asked and answered
on the way. -/
inductive Midway (key : κ) (first : Pass κ) (start : Manager κ η) :
    List (Exchange κ) → Manager κ η → Pass κ → Prop
  | begun : Midway key first start [] start first
  | turned {history : List (Exchange κ)} {m : Manager κ η} {p : Pass κ} (turn : Turn κ η)
      (earlier : Midway key first start history m p) (spares : turn.Spares key) :
      Midway key first start (history ++ (turn.script m).exchanges Pass.registry p)
        (turn.after m ((turn.script m).run Pass.registry p).answer) ((turn.script m).run Pass.registry p).state
  | skipped {history : List (Exchange κ)} {m : Manager κ η} {p : Pass κ} {t : Task κ} {rest : List (Task κ)}
      (earlier : Midway key first start history m p) (head : p.waiting = t :: rest) (early : t.isDue = false) :
      Midway key first start history m (p.passed ⟨t, none⟩ rest)
  | settled {history : List (Exchange κ)} {m : Manager κ η} {p : Pass κ} {t : Task κ} {rest : List (Task κ)}
      (settlement : Settlement) (earlier : Midway key first start history m p) (head : p.waiting = t :: rest)
      (due : t.isDue = true) : Midway key first start history m (p.passed ⟨t, some settlement⟩ rest)

namespace Midway

variable {key : κ} {first p : Pass κ} {start m : Manager κ η} {history : List (Exchange κ)}

theorem underway (midway : Midway key first start history m p) : first.Underway history p := by
  induction midway with
  | begun => exact .begun
  | turned turn earlier spares ih => exact Pass.underway_run _ ih
  | skipped earlier head early ih => exact ih.skipped head early
  | settled settlement earlier head due ih => exact ih.settled settlement head due

theorem tended {keeps : α → Manager κ η} {script : Script κ α} (tends : Tends key keeps m script)
    (before : Midway key first start history m p) :
    Midway key first start (history ++ script.exchanges Pass.registry p) (keeps (script.run Pass.registry p).answer)
      (script.run Pass.registry p).state := by
  induction tends generalizing history p with
  | done a kept =>
    subst kept
    exact (List.append_nil history).symm ▸ before
  | note line later ih => exact ih before
  | @turn turn m next spares later ih =>
    have after := ih _ (before.turned turn spares)
    rw [List.append_assoc] at after
    rw [Script.exchanges_bind, show (turn.script m >>= next : Script κ α) = (turn.script m).bind next from rfl,
      Script.run_bind]
    exact after

/-- A tick of code that goes in turns is a run of turns and settlements, at the end of which no task
waits. -/
theorem swept {keeps : ρ → Manager κ η} {code : TaskCode κ ρ}
    (tends : ∀ k shared, Tends key (fun ran => keeps ran.2) (keeps shared) (code k shared))
    (s : Scheduler κ τ) (shared : ρ) :
    Midway key s.firstPass (keeps shared) (s.tickExchanges code shared) (keeps (s.swept code shared).state.shared)
        (s.swept code shared).state.pass ∧
      (s.swept code shared).state.pass.waiting = [] := by
  refine Sweep.through_induction code (s.uptime + s.period)
    (motive := fun history tasks sweep =>
      Midway key s.firstPass (keeps shared) history (keeps sweep.shared) sweep.pass ∧ sweep.pass.waiting = tasks)
    ?_ ?_ [] s.aged { pass := s.firstPass, events := s.events, tally := .none, shared } ⟨.begun, rfl⟩
  · rintro history t rest sweep early ⟨before, ahead⟩
    exact ⟨before.skipped ahead early, rfl⟩
  · rintro history t rest sweep due ⟨before, ahead⟩
    have same : { sweep.pass with waiting := t :: rest } = sweep.pass := by rw [← ahead]
    refine ⟨settled _ ?_ ?_ due, rfl⟩
    · have ran := before.tended (tends t.key sweep.shared)
      rw [← same] at ran
      exact ran
    · exact (Pass.run_frame _ _).1

end Midway

/-- What a manager and the scheduler under it can come to between ticks, with what was asked and answered
on the way. -/
inductive Reached [TickTimer τ] (key : κ) : List (Exchange κ) → Manager κ η → Scheduler κ τ → Prop
  | fresh (config : Config) (capacity : Nat) (timer : τ) :
      Reached key [] (.idle key config) (.empty capacity timer)
  | started {history : List (Exchange κ)} {m : Manager κ η} {s : Scheduler κ τ} (period : Duration)
      (earlier : Reached key history m s) : Reached key history m (s.start period).state
  | stopped {history : List (Exchange κ)} {m : Manager κ η} {s : Scheduler κ τ}
      (earlier : Reached key history m s) : Reached key history m s.stop.state
  | turned {history : List (Exchange κ)} {m : Manager κ η} {s : Scheduler κ τ} (turn : Turn κ η)
      (earlier : Reached key history m s) (spares : turn.Spares key) :
      Reached key (history ++ (turn.script m).exchanges Scheduler.registry s)
        (turn.after m ((turn.script m).run Scheduler.registry s).answer)
        ((turn.script m).run Scheduler.registry s).state
  | ticked {history : List (Exchange κ)} {s : Scheduler κ τ} {ρ : Type} {keeps : ρ → Manager κ η}
      {code : TaskCode κ ρ} (tends : ∀ k shared, Tends key (fun ran => keeps ran.2) (keeps shared) (code k shared))
      (shared : ρ) (earlier : Reached key history (keeps shared) s) :
      Reached key (history ++ s.exchanges (.tick code shared)) (keeps (s.tick code shared).state.2)
        (s.tick code shared).state.1

end Power
end ConferenceBadge
