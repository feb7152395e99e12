import ConferenceBadge.Program

/-!
What a program does of its own: the calls that it makes and the lines that it notes, in order
(`Program.deeds`). Those who answer note lines too, which are in the log of a run but not among these.
`Always` tells of the deeds and of the result, whoever answers. It is read off the program (`always_bind`)
and holds of every run (`Always.run`).
-/
namespace ConferenceBadge

variable {κ σ ω α β : Type} {I : Interface}

/-- What a program does apart from asking the registry. -/
inductive Deed (I : Interface) where
  | called (c : I.Call)
  | noted (line : Log.Line)

namespace Program

/-- The deeds of a run, in order. -/
def deeds (registry : Registry κ σ) (handler : Handler I ω) : Program κ I α → σ → ω → List (Deed I)
  | done _, _, _ => []
  | ask q next, s, w => deeds registry handler (next (registry q s).answer) (registry q s).state w
  | call c next, s, w => .called c :: deeds registry handler (next (handler c w).answer) s (handler c w).state
  | note line next, s, w => .noted line :: deeds registry handler next s w

/-- Whatever the requests and the calls are answered, the program has such deeds and ends with such a
result. -/
def Always : (List (Deed I) → α → Prop) → Program κ I α → Prop
  | post, done a => post [] a
  | post, ask _ next => ∀ a, Always post (next a)
  | post, call c next => ∀ a, Always (fun more => post (.called c :: more)) (next a)
  | post, note line next => Always (fun more => post (.noted line :: more)) next

variable {post : List (Deed I) → α → Prop}

@[simp] theorem always_done {a : α} : Always post (done a : Program κ I α) ↔ post [] a := Iff.rfl

@[simp] theorem always_pure {a : α} : Always post (pure a : Program κ I α) ↔ post [] a := Iff.rfl

@[simp] theorem always_call {c : I.Call} {next : I.Answer c → Program κ I α} :
    Always post (call c next) ↔ ∀ a, Always (fun more => post (.called c :: more)) (next a) := Iff.rfl

/-- What a program does after another comes behind the deeds of the first one. -/
@[simp] theorem always_bind {post : List (Deed I) → β → Prop} {p : Program κ I α} {f : α → Program κ I β} :
    Always post (p >>= f) ↔ Always (fun first a => Always (fun more => post (first ++ more)) (f a)) p := by
  show Always post (p.bind f) ↔ _
  induction p generalizing post with
  | done a => rfl
  | ask q next ih => exact forall_congr' fun a => ih a
  | call c next ih => exact forall_congr' fun a => ih a
  | note line next ih => exact ih

theorem Always.mono {weaker : List (Deed I) → α → Prop} {p : Program κ I α} (always : Always post p)
    (implied : ∀ deeds a, post deeds a → weaker deeds a) : Always weaker p := by
  induction p generalizing post weaker with
  | done a => exact implied [] a always
  | ask q next ih => exact fun a => ih a (always a) implied
  | call c next ih => exact fun a => ih a (always a) fun more => implied (.called c :: more)
  | note line next ih => exact ih always fun more => implied (.noted line :: more)

/-- What always holds of a program holds of each of its runs. -/
theorem Always.run {p : Program κ I α} (always : Always post p) (registry : Registry κ σ) (handler : Handler I ω)
    (s : σ) (w : ω) : post (p.deeds registry handler s w) (p.run registry handler s w).answer := by
  induction p generalizing post s w with
  | done a => exact always
  | ask q next ih => exact ih _ (always _) _ _
  | call c next ih => exact ih _ (always _) _ _
  | note line next ih => exact ih always s w

/-- The program does only what is allowed, and ends with such a result. -/
def Keeps (allowed : Deed I → Prop) (post : α → Prop) : Program κ I α → Prop :=
  Always fun deeds a => (∀ d ∈ deeds, allowed d) ∧ post a

variable {allowed : Deed I → Prop} {post : α → Prop}

@[simp] theorem keeps_pure {a : α} : Keeps allowed post (pure a : Program κ I α) ↔ post a := by
  simp [Keeps]

theorem Keeps.mono {weaker : α → Prop} {p : Program κ I α} (keeps : Keeps allowed post p)
    (implied : ∀ a, post a → weaker a) : Keeps allowed weaker p :=
  Always.mono keeps fun _ a kept => ⟨kept.1, implied a kept.2⟩

theorem Keeps.call {c : I.Call} (allow : allowed (.called c)) {next : I.Answer c → Program κ I α}
    (rest : ∀ a, Keeps allowed post (next a)) : Keeps allowed post (call c next) := by
  intro a
  refine Always.mono (rest a) ?_
  rintro more last ⟨allowed, kept⟩
  exact ⟨List.forall_mem_cons.mpr ⟨allow, allowed⟩, kept⟩

theorem Keeps.add {key : κ} {target : Duration} {visibility : Visibility}
    {next : Except RegistryError Handle → Program κ I α} (rest : ∀ a, Keeps allowed post (next a)) :
    Keeps allowed post (Program.add key target visibility >>= next) := rest

theorem Keeps.note {line : Log.Line} (allow : allowed (.noted line)) {p : Program κ I α}
    (rest : Keeps allowed post p) : Keeps allowed post (note line p) := by
  show Always _ p
  refine Always.mono rest ?_
  rintro more last ⟨allowed, kept⟩
  exact ⟨List.forall_mem_cons.mpr ⟨allow, allowed⟩, kept⟩

theorem Keeps.noting {lines : List Log.Line} (allow : ∀ line ∈ lines, allowed (.noted line)) {p : Program κ I α}
    (rest : Keeps allowed post p) : Keeps allowed post (noting lines p) := by
  induction lines with
  | nil => exact rest
  | cons line others ih =>
    obtain ⟨first, allow⟩ := List.forall_mem_cons.mp allow
    exact .note first (ih allow)

theorem Keeps.bind {middle : α → Prop} {post : β → Prop} {p : Program κ I α} {f : α → Program κ I β}
    (first : Keeps allowed middle p) (rest : ∀ a, middle a → Keeps allowed post (f a)) :
    Keeps allowed post (p >>= f) := by
  refine always_bind.mpr (Always.mono first ?_)
  rintro before a ⟨began, reached⟩
  refine Always.mono (rest a reached) ?_
  rintro more last ⟨went, ended⟩
  exact ⟨List.forall_mem_append.mpr ⟨began, went⟩, ended⟩

/-- What every allowed call keeps of the surroundings, a program that does only what is allowed keeps. -/
theorem Keeps.run_kept {p : Program κ I α} (keeps : Keeps allowed post p) (registry : Registry κ σ)
    (handler : Handler I ω) {motive : ω → Prop}
    (called : ∀ c w, allowed (.called c) → motive w → motive (handler c w).state) (s : σ) {w : ω} (before : motive w) :
    motive (p.run registry handler s w).state.2 := by
  have did := (Always.run keeps registry handler s w).1
  clear keeps
  induction p generalizing s w with
  | done a => exact before
  | ask q next ih => exact ih _ _ before did
  | call c next ih =>
    obtain ⟨first, rest⟩ := List.forall_mem_cons.mp did
    exact ih _ _ (called c w first before) rest
  | note line next ih => exact ih _ before (List.forall_mem_cons.mp did).2

end Program
end ConferenceBadge
