import ConferenceBadge.Proofs.Session.Period

/-!
The delivery of ticks. What happens in ticks depends neither on what the transcript holds, as long as the session
finds the same time on the host and the same manifests around it (`deliver_withTranscript`), nor on what has happened
before. So ticks may be delivered in two batches (`deliver_add`).
-/
namespace ConferenceBadge

/-- A badge that boots sees of its store only the list of apps and their manifests. -/
theorem Emulator.boot_same (store other : AppStore) (names : other.names = store.names)
    (manifests : ∀ app : Service.AppName, other.files.content? (AppStore.manifestPath other.root app.text) =
      store.files.content? (AppStore.manifestPath store.root app.text))
    (now : Int) (radio : Radio) (power : Power.Config) (period : Duration) :
    boot other now radio power period = boot store now radio power period := by
  have world : Devices.world now other = Devices.world now store := by
    funext c d
    cases c with
    | count => simp only [Devices.world, AppStore.count, names]
    | name index => simp only [Devices.world, AppStore.name?, names]
    | manifest app limit =>
      have read : other.manifest app.text limit = store.manifest app.text limit := by
        delta AppStore.manifest
        rw [manifests]
      exact congrArg (fun read => Reply.mk read d []) read
    | _ => rfl
  rw [boot, boot, world]

namespace Console

/-- A transcript with more lines. -/
def Transcript.continued (t : Transcript) (more : List String) : Transcript := { t with lines := t.lines ++ more }

@[simp] theorem Transcript.continued_nil (t : Transcript) : t.continued [] = t := by
  simp [continued]

theorem Transcript.continued_continued (t : Transcript) (first more : List String) :
    (t.continued first).continued more = t.continued (first ++ more) := by
  have lines : t.lines ++ first ++ more = t.lines ++ (first ++ more) := Array.ext' (by simp)
  simp only [continued, lines]

namespace Session

/-- What a session finds around it: this time on the host, and these manifests of apps, whatever its transcript still
gets. -/
structure Finds (s : Session) (now : Int) (shelf : Service.AppName → Option ByteArray) (around : Surroundings) :
    Prop where
  now : around.now = now
  manifests : ∀ more app, (around.filesWith (s.transcript.map (·.continued more))).content?
    (AppStore.manifestPath s.options.root app.text) = shelf app

variable {s t : Session} {now : Int} {shelf : Service.AppName → Option ByteArray} {around other : Surroundings}

theorem Finds.manifest (found : s.Finds now shelf around) (app : Service.AppName) :
    (s.files around).content? (AppStore.manifestPath s.options.root app.text) = shelf app := by
  have manifest := found.manifests [] app
  simp only [Transcript.continued_nil, Option.map_id'] at manifest
  exact manifest

theorem Finds.continued (found : s.Finds now shelf around) (options : t.options = s.options) {more : List String}
    (transcript : t.transcript = s.transcript.map (·.continued more)) : t.Finds now shelf around := by
  refine ⟨found.now, fun later app => ?_⟩
  rw [transcript, options, Option.map_map]
  simp only [Function.comp_def, Transcript.continued_continued]
  exact found.manifests (more ++ later) app

/-- The session with another transcript. -/
def withTranscript (s : Session) (transcript : Option Transcript) : Session := { s with transcript }

section Transcripts

variable {x : Option Transcript}

theorem restart_withTranscript (found : s.Finds now shelf around) (again : (s.withTranscript x).Finds now shelf other) :
    (s.withTranscript x).restart other =
      { s.restart around with state := (s.restart around).state.withTranscript x } := by
  have booted := Emulator.boot_same (s.store around) ((s.withTranscript x).store other) rfl
    (fun app => (again.manifest app).trans (found.manifest app).symm) now s.badge.radio.afterSleep s.options.power
    s.options.period
  simp only [restart, found.now, again.now]
  rw [← booted]
  rfl

theorem sleepOn_withTranscript (found : s.Finds now shelf around) (again : (s.withTranscript x).Finds now shelf other)
    (asleep : Sleeping) (period : Duration) :
    (s.withTranscript x).sleepOn other asleep period =
      { s.sleepOn around asleep period with state := (s.sleepOn around asleep period).state.withTranscript x } := by
  unfold sleepOn
  cases asleep.left with
  | none => rfl
  | some left =>
    simp only
    split
    · rw [restart_withTranscript found again]
      rfl
    · rfl

theorem stayOn_withTranscript (same : other.now = around.now) :
    (s.withTranscript x).stayOn other =
      { s.stayOn around with state := (s.stayOn around).state.withTranscript x } := by
  simp only [stayOn, withTranscript, same]
  cases (s.badge.tick around.now).state.takeSleep.answer <;> rfl

/-- What passes in a period does not depend on the transcript. -/
theorem elapse_withTranscript (found : s.Finds now shelf around) (again : (s.withTranscript x).Finds now shelf other)
    (period : Duration) :
    (s.withTranscript x).elapse other period =
      { s.elapse around period with state := (s.elapse around period).state.withTranscript x } := by
  have same := again.now.trans found.now.symm
  -- The clock moves first, whether the badge is awake or not.
  obtain ⟨options, apps, badge, asleep, boots, clock, transcript⟩ := s
  cases asleep with
  | none =>
    let later : Session := ⟨options, apps, badge, none, boots, clock + period, transcript⟩
    exact stayOn_withTranscript (s := later) (x := x) same
  | some asleep =>
    let later : Session := ⟨options, apps, badge, some asleep, boots, clock + period, transcript⟩
    exact sleepOn_withTranscript (s := later) (x := x) ⟨found.now, found.manifests⟩ ⟨again.now, again.manifests⟩ asleep
      period

end Transcripts

theorem elapse_frame (s : Session) (around : Surroundings) (period : Duration) :
    (s.elapse around period).state.options = s.options ∧
      (s.elapse around period).state.transcript = s.transcript := by
  simp only [elapse]
  split
  · next asleep sleeping =>
    simp only [sleepOn]
    split
    · exact ⟨rfl, rfl⟩
    · split <;> exact ⟨rfl, rfl⟩
  · simp only [stayOn]
    split <;> exact ⟨rfl, rfl⟩

theorem Finds.of_same (found : s.Finds now shelf around) (options : t.options = s.options)
    (transcript : t.transcript = s.transcript) : t.Finds now shelf around := by
  refine ⟨found.now, ?_⟩
  rw [options, transcript]
  exact found.manifests

section Steps

variable {p : Progress} {period : Duration}

/-- Nothing delivered yet. -/
def begun (s : Session) : Progress := { session := s, totals := .none, lines := #[], log := #[] }

theorem steps_frame (p : Progress) (around : Surroundings) (period : Duration) (n : Nat) :
    (p.steps around period n).session.options = p.session.options ∧
      (p.steps around period n).session.transcript = p.session.transcript := by
  induction n generalizing p with
  | zero => exact ⟨rfl, rfl⟩
  | succ n ih =>
    obtain ⟨options, transcript⟩ := ih (p.step around period)
    obtain ⟨same, still⟩ := elapse_frame p.session around period
    exact ⟨options.trans same, transcript.trans still⟩

theorem steps_add (p : Progress) (around : Surroundings) (period : Duration) (m n : Nat) :
    p.steps around period (m + n) = (p.steps around period m).steps around period n := by
  induction m generalizing p with
  | zero => rw [Nat.zero_add, Progress.steps]
  | succ m ih =>
    rw [Nat.succ_add]
    exact ih (p.step around period)

/-- What happens does not depend on what has happened before, which comes first. -/
theorem steps_begun (p : Progress) (around : Surroundings) (period : Duration) (n : Nat) :
    (p.steps around period n).session = ((begun p.session).steps around period n).session ∧
      (p.steps around period n).lines = p.lines ++ ((begun p.session).steps around period n).lines := by
  -- For any progress, as the rest goes on from what the first tick has left, and from nothing but it.
  induction n generalizing p with
  | zero => exact ⟨rfl, (Array.append_empty).symm⟩
  | succ n ih =>
    obtain ⟨session, lines⟩ := ih (p.step around period)
    obtain ⟨same, rest⟩ := ih ((begun p.session).step around period)
    refine ⟨session.trans same.symm, ?_⟩
    rw [Progress.steps, Progress.steps, lines, rest]
    exact Array.ext' (by simp [Progress.step, begun])

theorem steps_clock (p : Progress) (around : Surroundings) (period : Duration) (n : Nat) :
    (p.steps around period n).session.clock = .ofNanos (p.session.clock.nanos + n * period.nanos) := by
  induction n generalizing p with
  | zero =>
    apply Duration.ext
    have bound := p.session.clock.nanos_le
    simp [Progress.steps, bound]
  | succ n ih =>
    apply Duration.ext
    rw [Progress.steps, ih, Progress.step, elapse_clock, Nat.succ_mul]
    simp only [Duration.nanos_ofNanos, Duration.nanos_add]
    omega

theorem steps_withTranscript {x : Option Transcript} (found : p.session.Finds now shelf around)
    (again : (p.session.withTranscript x).Finds now shelf other) (period : Duration) (n : Nat) :
    ({ p with session := p.session.withTranscript x } : Progress).steps other period n =
      { p.steps around period n with session := (p.steps around period n).session.withTranscript x } := by
  induction n generalizing p with
  | zero => rfl
  | succ n ih =>
    obtain ⟨options, transcript⟩ := elapse_frame p.session around period
    have step : ({ p with session := p.session.withTranscript x } : Progress).step other period =
        { p.step around period with session := (p.step around period).session.withTranscript x } := by
      simp only [Progress.step, elapse_withTranscript found again period]
    rw [Progress.steps, step]
    exact ih (found.of_same options transcript) (again.of_same options rfl)

end Steps

section Deliveries

theorem deliver_eq (s : Session) (around : Surroundings) (n : Nat) :
    s.deliver around n =
      let p := (begun s).steps around s.badge.scheduler.period n
      ⟨summary n p.session.clock p.totals :: p.lines.toList, p.session, p.log.toList⟩ := rfl

/-- What is known of a transcript does not matter to ticks that are delivered. -/
theorem deliver_withTranscript {x : Option Transcript} (found : s.Finds now shelf around)
    (again : (s.withTranscript x).Finds now shelf other) (n : Nat) :
    (s.withTranscript x).deliver other n =
      { s.deliver around n with state := (s.deliver around n).state.withTranscript x } := by
  have steps : (begun (s.withTranscript x)).steps other (s.withTranscript x).badge.scheduler.period n = _ :=
    steps_withTranscript (p := begun s) found again s.badge.scheduler.period n
  rw [deliver_eq, deliver_eq, steps]
  rfl

/-- Ticks may be delivered in two batches, if the badge ticks at the same period then. -/
theorem deliver_add {m : Nat} (same : (s.deliver around m).state.badge.scheduler.period = s.badge.scheduler.period)
    (n : Nat) :
    (s.deliver around (m + n)).state = ((s.deliver around m).state.deliver around n).state ∧
      (s.deliver around (m + n)).answer.tail =
        (s.deliver around m).answer.tail ++ ((s.deliver around m).state.deliver around n).answer.tail := by
  let p := (begun s).steps around s.badge.scheduler.period m
  obtain ⟨session, lines⟩ := steps_begun p around s.badge.scheduler.period n
  rw [← steps_add] at session lines
  have state : (s.deliver around m).state = p.session := rfl
  rw [state] at same ⊢
  simp only [deliver_eq, List.tail_cons, same, session, lines, Array.toList_append, true_and]
  rfl

end Deliveries

end Session
end Console
end ConferenceBadge
