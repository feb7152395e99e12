import ConferenceBadge.Proofs.Guarantee

/-!
The calls of a run: what was called, on which surroundings and with which answer, in order
(`Program.calls`). What a run does is told by its calls together with what it leaves (`Program.Ends`).
A program that makes only some of the calls (`Program.Only`) runs alike wherever these are answered
alike (`Program.run_alike`).
-/
namespace ConferenceBadge

variable {κ σ ω α β : Type} {I : Interface}

/-- A call that was made: the surroundings that it found, and its answer. -/
structure Interface.Called (I : Interface) (ω : Type) where
  call : I.Call
  before : ω
  answer : I.Answer call

/-- A call as it is made on some surroundings. -/
def Handler.called (handler : Handler I ω) (c : I.Call) (w : ω) : I.Called ω := ⟨c, w, (handler c w).answer⟩

namespace Program

variable {registry : Registry κ σ} {handler : Handler I ω} {s : σ} {w : ω}

/-- The calls that a run makes, in order. -/
def calls (registry : Registry κ σ) (handler : Handler I ω) : Program κ I α → σ → ω → List (I.Called ω)
  | done _, _, _ => []
  | ask q next, s, w => calls registry handler (next (registry q s).answer) (registry q s).state w
  | call c next, s, w =>
    handler.called c w :: calls registry handler (next (handler c w).answer) s (handler c w).state
  | note _ next, s, w => calls registry handler next s w

/-- A program after another makes its calls behind those of the first one. -/
theorem calls_bind (p : Program κ I α) (f : α → Program κ I β) (s : σ) (w : ω) :
    let first := p.run registry handler s w
    (p >>= f).calls registry handler s w =
      p.calls registry handler s w ++ (f first.answer).calls registry handler first.state.1 first.state.2 := by
  show (p.bind f).calls registry handler s w = _
  induction p generalizing s w with
  | done a => rfl
  | ask q next ih => exact ih _ _ _
  | call c next ih => exact congrArg (_ :: ·) (ih _ _ _)
  | note line next ih => exact ih _ _

/-- What every call keeps of the surroundings holds before every call. -/
theorem calls_kept {motive : ω → Prop} (called : ∀ c w, motive w → motive (handler c w).state) (p : Program κ I α)
    (registry : Registry κ σ) (s : σ) (before : motive w) : ∀ c ∈ p.calls registry handler s w, motive c.before := by
  induction p generalizing s w with
  | done a => exact fun c none => absurd none List.not_mem_nil
  | ask q next ih => exact ih _ _ before
  | call c next ih => exact List.forall_mem_cons.mpr ⟨before, ih _ _ (called c w before)⟩
  | note line next ih => exact ih _ before

/-- What every call keeps of the surroundings, a program keeps with its calls served. -/
theorem ensures_serve_kept {motive : ω → Prop} (called : ∀ c w, motive w → motive (handler c w).state)
    (p : Program κ I α) (before : motive w) :
    Ensures registry (Interface.anyone .silent) (fun served _ => motive served.2) (p.serve handler w) s := by
  induction p generalizing s w with
  | done a => exact before
  | ask q next ih => exact ih _ before
  | call c next ih => exact ensures_serve_call.mpr (ih _ (called c w before))
  | note line next ih => exact ih before

/-- A run makes these calls, ends with this answer, and leaves this of the registry and the surroundings. -/
def Ends (registry : Registry κ σ) (handler : Handler I ω) (post : List (I.Called ω) → α → σ → ω → Prop)
    (p : Program κ I α) (s : σ) (w : ω) : Prop :=
  let last := p.run registry handler s w
  post (p.calls registry handler s w) last.answer last.state.1 last.state.2

section Ends

variable {post : List (I.Called ω) → α → σ → ω → Prop}

@[simp] theorem ends_pure {a : α} : Ends registry handler post (pure a : Program κ I α) s w ↔ post [] a s w := Iff.rfl

@[simp] theorem ends_done {a : α} : Ends registry handler post (done a : Program κ I α) s w ↔ post [] a s w := Iff.rfl

@[simp] theorem ends_call {c : I.Call} {next : I.Answer c → Program κ I α} :
    Ends registry handler post (call c next) s w ↔
      Ends registry handler (fun more => post (handler.called c w :: more)) (next (handler c w).answer) s
        (handler c w).state := Iff.rfl

@[simp] theorem ends_log {post : List (I.Called ω) → Unit → σ → ω → Prop} {level : Log.Level} {source : Log.Source}
    {text : String} : Ends registry handler post (log level source text) s w ↔ post [] () s w := Iff.rfl

@[simp] theorem ends_noting {lines : List Log.Line} {p : Program κ I α} :
    Ends registry handler post (noting lines p) s w ↔ Ends registry handler post p s w := by
  induction lines with
  | nil => rfl
  | cons line rest ih => exact ih

/-- A program after another ends as it does from what the first one leaves. -/
@[simp] theorem ends_bind {post : List (I.Called ω) → β → σ → ω → Prop} {p : Program κ I α} {f : α → Program κ I β} :
    Ends registry handler post (p >>= f) s w ↔
      Ends registry handler
        (fun first a s w => Ends registry handler (fun more => post (first ++ more)) (f a) s w) p s w := by
  simp only [Ends, calls_bind, run_andThen, Reply.andThen]

theorem Ends.mono {weaker : List (I.Called ω) → α → σ → ω → Prop} {p : Program κ I α}
    (ends : Ends registry handler post p s w) (implied : ∀ calls a s w, post calls a s w → weaker calls a s w) :
    Ends registry handler weaker p s w := implied _ _ _ _ ends

end Ends

/-- A program that makes no calls but these, whatever it is answered. -/
def Only (allowed : I.Call → Prop) : Program κ I α → Prop
  | done _ => True
  | ask _ next => ∀ a, Only allowed (next a)
  | call c next => allowed c ∧ ∀ a, Only allowed (next a)
  | note _ next => Only allowed next

section Only

variable {allowed : I.Call → Prop}

@[simp] theorem only_call {c : I.Call} {next : I.Answer c → Program κ I α} :
    Only allowed (call c next) ↔ allowed c ∧ ∀ a, Only allowed (next a) := Iff.rfl

@[simp] theorem only_log {level : Log.Level} {source : Log.Source} {text : String} :
    Only allowed (log level source text : Program κ I Unit) ↔ True := Iff.rfl

@[simp] theorem only_add {key : κ} {target : Duration} {visibility : Visibility} :
    Only allowed (add key target visibility : Program κ I _) ↔ True :=
  iff_true_intro fun _ => trivial

@[simp] theorem only_noting {lines : List Log.Line} {p : Program κ I α} :
    Only allowed (noting lines p) ↔ Only allowed p := by
  induction lines with
  | nil => rfl
  | cons line rest ih => exact ih

theorem Only.bind {p : Program κ I α} {f : α → Program κ I β} (first : Only allowed p)
    (rest : ∀ a, Only allowed (f a)) : Only allowed (p >>= f) := by
  show Only allowed (p.bind f)
  induction p with
  | done a => exact rest a
  | ask q next ih => exact fun a => ih a (first a)
  | call c next ih => exact ⟨first.1, fun a => ih a (first.2 a)⟩
  | note line next ih => exact ih first

theorem Only.mono {weaker : I.Call → Prop} {p : Program κ I α} (only : Only allowed p)
    (implied : ∀ c, allowed c → weaker c) : Only weaker p := by
  induction p with
  | done a => trivial
  | ask q next ih => exact fun a => ih a (only a)
  | call c next ih => exact ⟨implied c only.1, fun a => ih a (only.2 a)⟩
  | note line next ih => exact ih only

/-- Every call of a run is one of those that the program makes. -/
theorem Only.calls {p : Program κ I α} (only : Only allowed p) (registry : Registry κ σ) (handler : Handler I ω)
    (s : σ) (w : ω) : ∀ c ∈ p.calls registry handler s w, allowed c.call := by
  induction p generalizing s w with
  | done a => exact fun c none => absurd none List.not_mem_nil
  | ask q next ih => exact ih _ (only _) _ _
  | call c next ih =>
    rintro other (_ | ⟨_, later⟩)
    · exact only.1
    · exact ih _ (only.2 _) _ _ other later
  | note line next ih => exact ih only _ _

/-- A program that makes no calls leaves the surroundings as they are. -/
theorem Only.silent {p : Program κ I α} (only : Only (fun _ : I.Call => False) p) (registry : Registry κ σ)
    (handler : Handler I ω) (s : σ) (w : ω) :
    p.calls registry handler s w = [] ∧ (p.run registry handler s w).state.2 = w := by
  induction p generalizing s w with
  | done a => exact ⟨rfl, rfl⟩
  | ask q next ih => exact ih _ (only _) _ _
  | call c next ih => exact only.1.elim
  | note line next ih => exact ih only _ _

/-- Where the calls of a program are answered alike, and leave surroundings that are alike again, its runs end
with the same answer and the same registry, and with the same calls as far as `seen` tells. -/
theorem run_alike {γ : Type} (alike : ω → ω → Prop) {seen : I.Called ω → Option γ} {p : Program κ I α}
    (only : Only allowed p)
    (answers : ∀ c w v, allowed c → alike w v →
      (handler c w).answer = (handler c v).answer ∧ alike (handler c w).state (handler c v).state ∧
        seen (handler.called c w) = seen (handler.called c v))
    {v : ω} (before : alike w v) (registry : Registry κ σ) (s : σ) :
    let one := p.run registry handler s w
    let other := p.run registry handler s v
    one.answer = other.answer ∧ one.state.1 = other.state.1 ∧ alike one.state.2 other.state.2 ∧
      (p.calls registry handler s w).filterMap seen = (p.calls registry handler s v).filterMap seen := by
  induction p generalizing s w v with
  | done a => exact ⟨rfl, rfl, before, rfl⟩
  | ask q next ih => exact ih _ (only _) before _
  | call c next ih =>
    obtain ⟨answer, after, same⟩ := answers c w v only.1 before
    have rest := ih (handler c w).answer (only.2 _) after s
    simp only [run, calls, Reply.andThen, List.filterMap_cons, same, ← answer]
    refine ⟨rest.1, rest.2.1, rest.2.2.1, ?_⟩
    rw [rest.2.2.2]
  | note line next ih => exact ih only before s

end Only
end Program
end ConferenceBadge
