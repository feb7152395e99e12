import ConferenceBadge.Proofs.Scheduler.View

/-!
What a program secures of the tasks that a registry shows, whichever of the true answers it gets. That
is read off the program alone (`Program.Secures`), and it holds of every run on a registry that shows
its tasks truly, in the middle of a tick as between ticks (`Script.secures_run`).
-/
namespace ConferenceBadge

variable {κ σ ω α β : Type} {I : Interface}

namespace Program

/-- However a truthful registry answers, and whatever the answers to calls are, the program ends with a
result and tasks as `post` says. -/
def Secures (post : α → List (Task κ) → Prop) : Program κ I α → List (Task κ) → Prop
  | done a, tasks => post a tasks
  | ask q next, tasks => ∀ answer : q.Answer, Exchange.Truthful ⟨q, answer⟩ tasks →
      Secures post (next answer) (Exchange.leaves ⟨q, answer⟩ tasks)
  | call c next, tasks => ∀ answer : I.Answer c, Secures post (next answer) tasks
  | note _ next, tasks => Secures post next tasks

variable {post : α → List (Task κ) → Prop} {tasks : List (Task κ)}

theorem secures_log {post : Unit → List (Task κ) → Prop} {level : Log.Level} {source : Log.Source}
    {text : String} : Secures post (log level source text : Program κ I Unit) tasks ↔ post () tasks := Iff.rfl

theorem secures_noting {lines : List Log.Line} {p : Program κ I α} :
    Secures post (noting lines p) tasks ↔ Secures post p tasks := by
  induction lines with
  | nil => rfl
  | cons line rest ih => exact ih

/-- A program after another secures what it secures from all that the first one may leave. -/
theorem secures_bind {post : β → List (Task κ) → Prop} {p : Program κ I α} {f : α → Program κ I β} :
    Secures post (p >>= f) tasks ↔ Secures (fun a after => Secures post (f a) after) p tasks := by
  show Secures post (p.bind f) tasks ↔ _
  induction p generalizing tasks with
  | done a => rfl
  | ask q next ih => exact forall_congr' fun answer => imp_congr_right fun _ => ih answer
  | call c next ih => exact forall_congr' fun answer => ih answer
  | note line next ih => exact ih

theorem Secures.mono {weaker : α → List (Task κ) → Prop} {p : Program κ I α} (secured : Secures post p tasks)
    (implied : ∀ a after, post a after → weaker a after) : Secures weaker p tasks := by
  induction p generalizing tasks with
  | done a => exact implied a tasks secured
  | ask q next ih => exact fun answer truthful => ih answer (secured answer truthful)
  | call c next ih => exact fun answer => ih answer (secured answer)
  | note line next ih => exact ih secured

/-- What a program secures it secures with its calls served. -/
theorem secures_serve {p : Program κ I α} (secured : Secures post p tasks) (handler : Handler I ω) (w : ω) :
    Secures (fun served after => post served.1 after) (p.serve handler w) tasks := by
  induction p generalizing tasks w with
  | done a => exact secured
  | ask q next ih => exact fun answer truthful => ih answer (secured answer truthful) w
  | call c next ih =>
    refine secures_bind.mpr ?_
    rw [ofReply, secures_noting]
    exact ih _ (secured _) _
  | note line next ih => exact ih secured w

end Program

namespace Registry.Shows

variable {registry : Registry κ σ} {view : σ → List (Task κ)} {sound : Nat → σ → Prop} {n : Nat} {s : σ}

theorem run (shows : registry.Shows view sound) (known : sound n s) (script : Script κ α)
    (few : n + Exchange.mintedIn (script.exchanges registry s) < Handle.numbers) :
    sound (n + Exchange.mintedIn (script.exchanges registry s)) (script.run registry s).state := by
  have all := Script.run_induction
    (motive := fun history s => n + Exchange.mintedIn history < Handle.numbers →
      sound (n + Exchange.mintedIn history) s)
    (fun history s q before few => by
      rw [Exchange.mintedIn_append, Exchange.mintedIn_singleton, ← Nat.add_assoc] at few ⊢
      exact shows.kept q (before (by omega)) few)
    script [] s fun _ => known
  exact all few

end Registry.Shows

/-- What a script secures holds of every run on a registry that shows its tasks. -/
theorem Script.secures_run {registry : Registry κ σ} {view : σ → List (Task κ)} {sound : Nat → σ → Prop}
    (shows : registry.Shows view sound) {post : α → List (Task κ) → Prop} {script : Script κ α} {n : Nat} {s : σ}
    (secured : Program.Secures post script (view s)) (known : sound n s)
    (few : n + Exchange.mintedIn (script.exchanges registry s) < Handle.numbers) :
    post (script.run registry s).answer (view (script.run registry s).state) := by
  induction script generalizing n s with
  | done a => exact secured
  | ask q next ih =>
    rw [exchanges, Exchange.mintedIn, ← Nat.add_assoc] at few
    have answered := secured _ (shows.truthful q known)
    rw [← shows.leaves q known] at answered
    exact ih _ answered (shows.kept q known (by omega)) few
  | call c next ih => exact Empty.elim c
  | note line next ih => exact ih secured known few

end ConferenceBadge
