import ConferenceBadge.Program

/-!
What a program guarantees of its result and of the registry after it, whoever answers its calls. The
answers to the calls may be relied on as far as `rely` says. A guarantee is read off the program
without running it (`ensures_bind`), and it holds of every run (`ensures_run`).
-/
namespace ConferenceBadge

variable {κ σ ω α β : Type} {I : Interface}

/-- What may be relied on of the answers to calls. -/
abbrev Interface.Rely (I : Interface) : Type := (c : I.Call) → I.Answer c → Prop

/-- Nothing is relied on. -/
def Interface.anyone (I : Interface) : I.Rely := fun _ _ => True

theorem Interface.anyone_kept (handler : Handler I ω) (c : I.Call) (w : ω) : I.anyone c (handler c w).answer :=
  trivial

/-- What one handler may answer is relied on. -/
def Interface.given (handler : Handler I ω) : I.Rely := fun c a => ∃ w, (handler c w).answer = a

theorem Interface.given_kept (handler : Handler I ω) (c : I.Call) (w : ω) :
    Interface.given handler c (handler c w).answer := ⟨w, rfl⟩

namespace Program

/-- However the calls are answered, the program ends with a result and a registry as `post` says. -/
def Ensures (registry : Registry κ σ) (rely : I.Rely) (post : α → σ → Prop) : Program κ I α → σ → Prop
  | done a, s => post a s
  | ask q next, s => Ensures registry rely post (next (registry q s).answer) (registry q s).state
  | call c next, s => ∀ a, rely c a → Ensures registry rely post (next a) s
  | note _ next, s => Ensures registry rely post next s

variable {registry : Registry κ σ} {rely : I.Rely} {post : α → σ → Prop} {s : σ}

@[simp] theorem ensures_done {a : α} :
    Ensures registry rely post (done a : Program κ I α) s ↔ post a s := Iff.rfl

@[simp] theorem ensures_call {c : I.Call} {next : I.Answer c → Program κ I α} :
    Ensures registry rely post (call c next) s ↔ ∀ a, rely c a → Ensures registry rely post (next a) s := Iff.rfl

@[simp] theorem ensures_pure {a : α} : Ensures registry rely post (pure a : Program κ I α) s ↔ post a s := Iff.rfl

@[simp] theorem ensures_add {post : Except RegistryError Handle → σ → Prop} {key : κ} {target : Duration}
    {visibility : Visibility} :
    Ensures registry rely post (add key target visibility) s ↔
      post (registry (.add key target visibility) s).answer (registry (.add key target visibility) s).state := Iff.rfl

@[simp] theorem ensures_update {post : Bool → σ → Prop} {handle : Handle} {target : Duration} :
    Ensures registry rely post (update handle target) s ↔
      post (registry (.update handle target) s).answer (registry (.update handle target) s).state := Iff.rfl

@[simp] theorem ensures_delete {post : Bool → σ → Prop} {handle : Handle} :
    Ensures registry rely post (delete handle) s ↔
      post (registry (.delete handle) s).answer (registry (.delete handle) s).state := Iff.rfl

@[simp] theorem ensures_contains {post : Bool → σ → Prop} {handle : Handle} :
    Ensures registry rely post (contains handle) s ↔
      post (registry (.contains handle) s).answer (registry (.contains handle) s).state := Iff.rfl

@[simp] theorem ensures_idleTime {post : IdleTime → σ → Prop} :
    Ensures registry rely post idleTime s ↔
      post (registry .idleTime s).answer (registry .idleTime s).state := Iff.rfl

@[simp] theorem ensures_log {post : Unit → σ → Prop} {level : Log.Level} {source : Log.Source} {text : String} :
    Ensures registry rely post (log level source text) s ↔ post () s := Iff.rfl

@[simp] theorem ensures_noting {lines : List Log.Line} {p : Program κ I α} :
    Ensures registry rely post (noting lines p) s ↔ Ensures registry rely post p s := by
  induction lines with
  | nil => rfl
  | cons line rest ih => exact ih

@[simp] theorem ensures_ofReply {post : α × ω → σ → Prop} {r : Reply ω α} :
    Ensures registry rely post (ofReply r) s ↔ post (r.answer, r.state) s := ensures_noting

/-- A program after another guarantees what it guarantees from all that the first one may leave. -/
@[simp] theorem ensures_bind {post : β → σ → Prop} {p : Program κ I α} {f : α → Program κ I β} :
    Ensures registry rely post (p >>= f) s ↔
      Ensures registry rely (fun a s => Ensures registry rely post (f a) s) p s := by
  show Ensures registry rely post (p.bind f) s ↔ _
  induction p generalizing s with
  | done a => rfl
  | ask q next ih => exact ih _
  | call c next ih => exact forall_congr' fun a => imp_congr_right fun _ => ih a
  | note line next ih => exact ih

theorem Ensures.mono {weaker : α → σ → Prop} {p : Program κ I α} (ensured : Ensures registry rely post p s)
    (implied : ∀ a s, post a s → weaker a s) : Ensures registry rely weaker p s := by
  induction p generalizing s with
  | done a => exact implied a s ensured
  | ask q next ih => exact ih _ ensured
  | call c next ih => exact fun a kept => ih a (ensured a kept)
  | note line next ih => exact ih ensured

/-- What always holds a program guarantees. -/
theorem Ensures.of_always (always : ∀ a s, post a s) (p : Program κ I α) (s : σ) : Ensures registry rely post p s := by
  induction p generalizing s with
  | done a => exact always a s
  | ask q next ih => exact ih _ _
  | call c next ih => exact fun a _ => ih a s
  | note line next ih => exact ih s

/-- What a program guarantees holds of each of its runs. -/
theorem ensures_run {p : Program κ I α} {handler : Handler I ω} (ensured : Ensures registry rely post p s)
    (kept : ∀ c w, rely c (handler c w).answer) (w : ω) :
    post (p.run registry handler s w).answer (p.run registry handler s w).state.1 := by
  induction p generalizing s w with
  | done a => exact ensured
  | ask q next ih => exact ih _ ensured w
  | call c next ih => exact ih _ (ensured _ (kept c w)) _
  | note line next ih => exact ih ensured w

/-- What every request and every call keeps, a program keeps. -/
theorem run_kept (registry : Registry κ σ) (handler : Handler I ω) {motive : σ → ω → Prop}
    (asked : ∀ q s w, motive s w → motive (registry q s).state w)
    (called : ∀ c s w, motive s w → motive s (handler c w).state) (p : Program κ I α) {s : σ} {w : ω}
    (before : motive s w) :
    motive (p.run registry handler s w).state.1 (p.run registry handler s w).state.2 := by
  induction p generalizing s w with
  | done a => exact before
  | ask q next ih => exact ih _ (asked q s w before)
  | call c next ih => exact ih _ (called c s w before)
  | note line next ih => exact ih before

/-- A program after another runs from what the first one leaves. -/
theorem run_andThen (registry : Registry κ σ) (handler : Handler I ω) (p : Program κ I α) (f : α → Program κ I β)
    (s : σ) (w : ω) :
    (p >>= f).run registry handler s w =
      (p.run registry handler s w).andThen fun a after => (f a).run registry handler after.1 after.2 :=
  run_bind registry handler p f s w

section
variable {handler : Handler I ω} {w : ω}

@[simp] theorem serve_pure {a : α} : (pure a : Program κ I α).serve handler w = pure (a, w) := rfl

@[simp] theorem serve_andThen {p : Program κ I α} {f : α → Program κ I β} :
    (p >>= f).serve handler w = p.serve handler w >>= fun served => (f served.1).serve handler served.2 :=
  serve_bind handler p f w

@[simp] theorem serve_idleTime :
    (idleTime : Program κ I IdleTime).serve handler w = idleTime >>= fun idle => pure (idle, w) := rfl

@[simp] theorem serve_log {level : Log.Level} {source : Log.Source} {text : String} :
    (log level source text : Program κ I Unit).serve handler w = log level source text >>= fun _ => pure ((), w) := rfl

/-- A call that is served goes on with its answer. -/
theorem ensures_serve_call {c : I.Call} {next : I.Answer c → Program κ I α} {post : α × ω → σ → Prop}
    {quiet : Interface.silent.Rely} :
    Ensures registry quiet post ((call c next).serve handler w) s ↔
      Ensures registry quiet post ((next (handler c w).answer).serve handler (handler c w).state) s :=
  ensures_bind.trans ensures_ofReply

end

/-- What a program guarantees it guarantees with its calls served. -/
theorem ensures_serve {p : Program κ I α} {handler : Handler I ω}
    (ensured : Ensures registry rely post p s) (kept : ∀ c w, rely c (handler c w).answer) (w : ω) :
    Ensures registry (Interface.anyone .silent) (fun served after => post served.1 after) (p.serve handler w) s := by
  induction p generalizing s w with
  | done a => exact ensured
  | ask q next ih => exact ih _ ensured w
  | call c next ih => exact ensures_serve_call.mpr (ih _ (ensured _ (kept c w)) _)
  | note line next ih => exact ih ensured w

theorem ensures_runAlone {p : Program Empty I α} {post : α → Unit → Prop} {handler : Handler I ω}
    (ensured : Ensures Registry.absent rely post p ()) (kept : ∀ c w, rely c (handler c w).answer) (w : ω) :
    post (p.runAlone handler w).answer () := ensures_run ensured kept w

end Program

namespace Script

/-- What a script guarantees holds of each of its runs. -/
theorem ensures_run {registry : Registry κ σ} {post : α → σ → Prop} {p : Script κ α} {s : σ}
    (ensured : Program.Ensures registry (Interface.anyone .silent) post p s) :
    post (p.run registry s).answer (p.run registry s).state :=
  Program.ensures_run ensured (fun c => Empty.elim c) ()

end Script

/-- What a program guarantees with its calls served holds of its run, for what the calls leave as well. -/
theorem Program.ensures_served {handler : Handler I ω} {p : Program κ I α} {w : ω} {post : α × ω → σ → Prop}
    {registry : Registry κ σ} {s : σ}
    (ensured : Ensures registry (Interface.anyone .silent) post (p.serve handler w) s) :
    post ((p.run registry handler s w).answer, (p.run registry handler s w).state.2)
      (p.run registry handler s w).state.1 := by
  have served := Script.ensures_run ensured
  rw [Script.run_serve] at served
  exact served

end ConferenceBadge
