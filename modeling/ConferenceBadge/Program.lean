import ConferenceBadge.Registry

/-!
Programs: code that asks a task registry, calls on its surroundings and notes log lines, as a value
that says nothing about who answers. The same program runs between ticks and in the middle of one,
and against any surroundings; `run` answers everything from one state, `serve` answers the calls and
leaves the requests open.
-/
namespace ConferenceBadge

/-- What a program may call on: the calls, and the kind of answer each gets. -/
structure Interface where
  Call : Type
  Answer : Call → Type

/-- No calls at all. -/
abbrev Interface.silent : Interface := ⟨Empty, Empty.elim⟩

/-- A program over a registry with keys `κ` and an interface, with a result in `α`. -/
inductive Program (κ : Type) (I : Interface) (α : Type) : Type where
  | done (a : α)
  | ask (request : Request κ) (next : request.Answer → Program κ I α)
  | call (c : I.Call) (next : I.Answer c → Program κ I α)
  | note (line : Log.Line) (next : Program κ I α)

/-- A program that only asks the registry. -/
abbrev Script (κ : Type) (α : Type) : Type := Program κ .silent α

/-- Someone who answers the calls of an interface from a state. -/
abbrev Handler (I : Interface) (ω : Type) : Type := (c : I.Call) → ω → Reply ω (I.Answer c)

namespace Program

variable {κ : Type} {I : Interface} {α β ω σ : Type}

/-- One program after another. -/
def bind : Program κ I α → (α → Program κ I β) → Program κ I β
  | done a, f => f a
  | ask q next, f => ask q fun a => (next a).bind f
  | call c next, f => call c fun a => (next a).bind f
  | note line next, f => note line (next.bind f)

instance : Monad (Program κ I) where
  pure := done
  bind := bind

/-- Ending with the same answer changes nothing. -/
theorem bind_done (p : Program κ I α) : p.bind done = p := by
  induction p with
  | done a => rfl
  | ask q next ih => exact congrArg (ask q) (funext ih)
  | call c next ih => exact congrArg (call c) (funext ih)
  | note line next ih => exact congrArg (note line) ih

/-- What follows may be grouped either way. -/
theorem bind_assoc {γ : Type} (p : Program κ I α) (f : α → Program κ I β) (g : β → Program κ I γ) :
    (p.bind f).bind g = p.bind fun a => (f a).bind g := by
  induction p with
  | done a => rfl
  | ask q next ih => exact congrArg (ask q) (funext ih)
  | call c next ih => exact congrArg (call c) (funext ih)
  | note line next ih => exact congrArg (note line) ih

instance : LawfulMonad (Program κ I) :=
  LawfulMonad.mk' _ (fun p => bind_done p) (fun _ _ => rfl) (fun p f g => bind_assoc p f g)

/-- Notes lines one after the other before going on. -/
def noting (lines : List Log.Line) (next : Program κ I α) : Program κ I α := lines.foldr note next

theorem noting_bind (lines : List Log.Line) (p : Program κ I α) (f : α → Program κ I β) :
    (noting lines p).bind f = noting lines (p.bind f) := by
  induction lines with
  | nil => rfl
  | cons line rest ih => exact congrArg (note line) ih

/-- Notes one line of a part of the badge. -/
def log (level : Log.Level) (source : Log.Source) (text : String) : Program κ I Unit :=
  note ⟨level, source, text⟩ (done ())

def add (key : κ) (target : Duration) (visibility : Visibility) :
    Program κ I (Except RegistryError Handle) :=
  ask (.add key target visibility) done

/-- Gives a task a new target; `false` where there is no such task, or the request was refused. -/
def update (handle : Handle) (target : Duration) : Program κ I Bool := ask (.update handle target) done

/-- Removes a task; `false` where there is no such task, or the request was refused. -/
def delete (handle : Handle) : Program κ I Bool := ask (.delete handle) done

/-- Whether there is a task with this handle. -/
def contains (handle : Handle) : Program κ I Bool := ask (.contains handle) done

/-- The time until the next visible task is due. -/
def idleTime : Program κ I IdleTime := ask .idleTime done

/-- An operation that has already been carried out on a state, as a program. -/
def ofReply (r : Reply ω α) : Program κ I (α × ω) := noting r.log (done (r.answer, r.state))

/-- Answers the requests from one state and the calls from another. -/
def run (registry : Registry κ σ) (handler : Handler I ω) : Program κ I α → σ → ω → Reply (σ × ω) α
  | done a, s, w => ⟨a, (s, w), []⟩
  | ask q next, s, w => (registry q s).andThen fun a s => (next a).run registry handler s w
  | call c next, s, w => (handler c w).andThen fun a w => (next a).run registry handler s w
  | note line next, s, w =>
    let rest := next.run registry handler s w
    { rest with log := line :: rest.log }

/-- Answers the calls from a state and leaves the requests open. -/
def serve (handler : Handler I ω) : Program κ I α → ω → Script κ (α × ω)
  | done a, w => done (a, w)
  | ask q next, w => ask q fun a => serve handler (next a) w
  | call c next, w => (ofReply (handler c w)).bind fun called => serve handler (next called.1) called.2
  | note line next, w => note line (serve handler next w)

/-- A program after another runs from the state that the first one left. -/
theorem run_bind (registry : Registry κ σ) (handler : Handler I ω) (p : Program κ I α)
    (f : α → Program κ I β) (s : σ) (w : ω) :
    (p.bind f).run registry handler s w =
      (p.run registry handler s w).andThen fun a after => (f a).run registry handler after.1 after.2 := by
  induction p generalizing s w with
  | done a => rfl
  | ask q next ih =>
    simp only [bind, run, Reply.andThen_assoc]
    congr 1
    funext a after
    exact ih a after w
  | call c next ih =>
    simp only [bind, run, Reply.andThen_assoc]
    congr 1
    funext a after
    exact ih a s after
  | note line next ih => simp only [bind, run, ih, Reply.andThen, List.cons_append]

theorem run_noting (registry : Registry κ σ) (handler : Handler I ω) (lines : List Log.Line)
    (p : Program κ I α) (s : σ) (w : ω) :
    (noting lines p).run registry handler s w =
      (Reply.mk () (s, w) lines).andThen fun _ after => p.run registry handler after.1 after.2 := by
  induction lines with
  | nil => rfl
  | cons line rest ih =>
    show (note line (noting rest p)).run registry handler s w = _
    simp only [run, ih, Reply.andThen, List.cons_append]

/-- Calls are served in the order in which they are made. -/
theorem serve_bind (handler : Handler I ω) (p : Program κ I α) (f : α → Program κ I β) (w : ω) :
    (p.bind f).serve handler w = (p.serve handler w).bind fun r => (f r.1).serve handler r.2 := by
  induction p generalizing w with
  | done a => rfl
  | ask q next ih => exact congrArg (ask q) (funext fun a => ih a w)
  | call c next ih =>
    simp only [bind, serve, bind_assoc]
    congr 1
    funext called
    exact ih called.1 called.2
  | note line next ih => exact congrArg (note line) (ih w)

end Program

namespace Program

variable {I : Interface} {α ω : Type}

/-- Runs a program that has no keys and no registry: what it asks is refused. -/
def runAlone (program : Program Empty I α) (handler : Handler I ω) (w : ω) : Reply ω α :=
  let reply := program.run Registry.absent handler () w
  { reply with state := reply.state.2 }

end Program

namespace Script

variable {κ σ α : Type}

/-- Answers the requests of a script from a state. -/
def run (registry : Registry κ σ) (script : Script κ α) (s : σ) : Reply σ α :=
  let reply := Program.run registry (fun c => Empty.elim c) script s ()
  { reply with state := reply.state.1 }

theorem run_ofReply (registry : Registry κ σ) {ω : Type} (r : Reply ω α) (s : σ) :
    run registry (Program.ofReply r) s = ⟨(r.answer, r.state), s, r.log⟩ := by
  simp only [run, Program.ofReply, Program.run_noting, Reply.andThen, Program.run, List.append_nil]

/-- A script after another runs from the state that the first one left. -/
theorem run_bind (registry : Registry κ σ) {β : Type} (p : Script κ α) (f : α → Script κ β) (s : σ) :
    run registry (p.bind f) s = (run registry p s).andThen fun a after => run registry (f a) after := by
  simp only [run, Program.run_bind, Reply.andThen]

/-- Serving the calls first and answering the requests then is answering both at once. -/
theorem run_serve {I : Interface} {ω : Type} (registry : Registry κ σ) (handler : Handler I ω)
    (p : Program κ I α) (s : σ) (w : ω) :
    run registry (p.serve handler w) s =
      (p.run registry handler s w).andThen fun a after => ⟨(a, after.2), after.1, []⟩ := by
  induction p generalizing s w with
  | done a => rfl
  | ask q next ih =>
    simp only [Program.run, Reply.andThen_assoc]
    show (registry q s).andThen (fun a after => run registry ((next a).serve handler w) after) = _
    congr 1
    funext a after
    exact ih a after w
  | call c next ih =>
    simp only [Program.serve, run_bind, run_ofReply, ih, Program.run]
    simp only [Reply.andThen, List.append_nil]
  | note line next ih =>
    show ({ run registry (next.serve handler w) s with
      log := line :: (run registry (next.serve handler w) s).log }) = _
    rw [ih]
    rfl

end Script
end ConferenceBadge
