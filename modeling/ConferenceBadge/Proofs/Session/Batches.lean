import ConferenceBadge.Proofs.Command
import ConferenceBadge.Proofs.Session.Delivery
import ConferenceBadge.Proofs.Session.WakeTimer

/-!
Time in batches. A line with ticks does what these ticks do (`Orders`), and a line with a time what the ticks do that
cover it. So it does not matter how time is spread over lines (`time_in_batches`).
-/
namespace ConferenceBadge

theorem Text.isBlank_of_isDigit {c : Char} (digit : c.isDigit = true) : isBlank c = false := by
  obtain ⟨least, most⟩ := Char.isDigit_iff_toNat.mp digit
  change 48 ≤ c.toNat at least
  change c.toNat ≤ 57 at most
  simp only [isBlank, blankRanges, List.any_eq_false, List.forall_mem_cons, Bool.and_eq_true, decide_eq_true_eq]
  refine ⟨?_, ?_, ?_, ?_, ?_, ?_, ?_, ?_, ?_, ?_, fun _ none => absurd none List.not_mem_nil⟩ <;> omega

/-- A word and a number behind it are not shortened. -/
theorem Text.trim_numbered {word : String} (begins : ∃ c ∈ word.toList.head?, isBlank c = false) (n : Nat) :
    trim (word ++ toString n) = word ++ toString n := by
  obtain ⟨c, head, solid⟩ := begins
  obtain ⟨others, letters⟩ := List.head?_eq_some_iff.mp head
  obtain ⟨digits, last, numeral⟩ := List.eq_nil_or_concat' (Nat.toDigits 10 n) |>.resolve_left Nat.toDigits_ne_nil
  have ends : isBlank last = false := by
    refine isBlank_of_isDigit (Nat.isDigit_of_mem_toDigits (b := 10) (n := n) (by decide) (by decide) ?_)
    rw [numeral]
    exact List.mem_append_right _ List.mem_cons_self
  have text : (word ++ toString n).toList = c :: others ++ digits ++ [last] := by
    rw [String.toList_append, letters, Nat.toString_eq_ofList_toDigits, String.toList_ofList, numeral,
      List.append_assoc]
  rw [trim, ← String.toList_inj, String.toList_ofList, trimChars, text]
  simp [solid, ends]

namespace Console.Session

variable {s t : Session} {now : Int} {shelf : Service.AppName → Option ByteArray} {around other : Surroundings}

/-- A line that has a session with this period deliver so many ticks. -/
structure Orders (line : String) (period : Duration) (count : Nat) : Prop where
  trimmed : Text.trim line = line
  nonempty : line ≠ ""
  command : ∃ command, Command.parse line = .ok command ∧ ∀ s : Session, s.badge.scheduler.period = period →
    ∀ around, s.carryOut around command = s.deliver around count

/-- What a command does, written into the transcript. -/
def written (around : Surroundings) (done : Reply Session (List String)) : Reply Session (List String) :=
  { done with state := (done.state.writeLog around done.log).write .emulator done.answer }

/-- A line with ticks has them delivered between what it and what they write into the transcript. -/
theorem Orders.handled {line : String} {count : Nat} (orders : Orders line s.badge.scheduler.period count)
    (around : Surroundings) :
    s.handle around line = written around ((s.write .host [line]).deliver around count) := by
  obtain ⟨trimmed, nonempty, command, parsed, carries⟩ := orders
  have period : (s.write .host [line]).badge.scheduler.period = s.badge.scheduler.period := by
    rw [write]
  have carried : (s.write .host [line]).carryOut around command = (s.write .host [line]).deliver around count :=
    carries _ period around
  unfold handle
  simp only [trimmed, nonempty, parsed, ↓reduceIte, carried]
  rw [written]

theorem written_withTranscript (done : Reply Session (List String)) (x : Option Transcript)
    (asked : List String) : ∃ more,
      (written around
          { done with state := done.state.withTranscript (x.map (·.continued asked)) }).state =
        done.state.withTranscript (x.map (·.continued more)) := by
  let logged := (around.filter.render done.log).map (Transcript.line done.state.clock .log)
  let answered := done.answer.map (Transcript.line done.state.clock .emulator)
  refine ⟨asked ++ logged ++ answered, ?_⟩
  cases x with
  | none => rfl
  | some t =>
    have lines := ((t.continued asked).continued_continued logged answered).trans (t.continued_continued asked _)
    rw [← List.append_assoc] at lines
    rw [Option.map_some, Option.map_some, ← lines]
    rfl

/-- A line with ticks does what these ticks do, whatever is in the transcript. -/
theorem Orders.handled_withTranscript {line : String} {count : Nat}
    (orders : Orders line s.badge.scheduler.period count) {x : Option Transcript} (found : s.Finds now shelf around)
    (again : (s.withTranscript x).Finds now shelf other) :
    ((s.withTranscript x).handle other line).answer = (s.deliver around count).answer ∧
      ((s.withTranscript x).handle other line).log = (s.deliver around count).log ∧
      ∃ more, ((s.withTranscript x).handle other line).state =
        (s.deliver around count).state.withTranscript (x.map (·.continued more)) := by
  let asked := [Transcript.line s.clock .host line]
  have wrote : (s.withTranscript x).write .host [line] = s.withTranscript (x.map (·.continued asked)) := by
    rw [write, withTranscript, withTranscript]
    rfl
  have delivered := deliver_withTranscript (x := x.map (·.continued asked)) found (again.continued rfl rfl) count
  have handled := Orders.handled (s := s.withTranscript x) orders other
  rw [wrote, delivered] at handled
  rw [handled]
  exact ⟨rfl, rfl, written_withTranscript _ x asked⟩

/-- A word and a number that spell a command are read as it. -/
theorem Orders.of_spells (word : String) {command : Command} {n count : Nat} {period : Duration}
    (spelled : Command.Spells (word.toList ++ [' '] ++ (toString n).toList) command)
    (begins : ∃ c ∈ word.toList.head?, Text.isBlank c = false)
    (carries : ∀ s : Session, s.badge.scheduler.period = period →
      ∀ around, s.carryOut around command = s.deliver around count) :
    Orders (word ++ " " ++ toString n) period count := by
  have letters : (word ++ " " ++ toString n).toList = word.toList ++ [' '] ++ (toString n).toList := by
    rw [String.toList_append, String.toList_append]
    rfl
  rw [← letters] at spelled
  refine ⟨Text.trim_numbered ?_ n, ?_, command, Command.parse_of_spells spelled, carries⟩
  · obtain ⟨c, head, solid⟩ := begins
    refine ⟨c, ?_, solid⟩
    rw [String.toList_append, List.head?_append, head]
    rfl
  · intro none
    rw [none] at spelled
    exact spelled.ne_nil rfl

theorem gap_space : Command.Gap [' '] := ⟨List.cons_ne_nil _ _, by simp [Command.gapChars]⟩

theorem orders_tick {count : Nat} (few : count < 2 ^ 32) (period : Duration) :
    Orders s!"tick {count}" period count :=
  .of_spells "tick" (.ticks gap_space few) ⟨'t', rfl, rfl⟩ fun _ _ _ => rfl

/-- A session, its transcript aside. -/
def bare (s : Session) : Session := s.withTranscript none

theorem clock_eq (same : s.bare = t.bare) : s.clock = t.clock :=
  (congrArg clock same : s.bare.clock = t.bare.clock)

/-- Two replies are the same, transcripts aside. -/
structure Alike (done other : Reply Session (List String)) : Prop where
  answer : done.answer = other.answer
  log : done.log = other.log
  state : done.state.bare = other.state.bare

theorem Alike.symm {done other : Reply Session (List String)} (alike : Alike done other) : Alike other done :=
  ⟨alike.answer.symm, alike.log.symm, alike.state.symm⟩

theorem Alike.trans {done other last : Reply Session (List String)} (alike : Alike done other)
    (more : Alike other last) : Alike done last :=
  ⟨alike.answer.trans more.answer, alike.log.trans more.log, alike.state.trans more.state⟩

/-- A line with ticks is answered with what these ticks do. -/
theorem Orders.handled_alike {line : String} {count : Nat} (orders : Orders line s.badge.scheduler.period count)
    (found : s.Finds now shelf around) (again : s.Finds now shelf other) :
    Alike (s.handle other line) (s.deliver around count) := by
  obtain ⟨answer, log, more, state⟩ := orders.handled_withTranscript (x := s.transcript) found again
  have same : s.withTranscript s.transcript = s := rfl
  rw [same] at answer log state
  refine ⟨answer, log, ?_⟩
  rw [state]
  rfl

/-- Two lines with ticks do what all of these ticks do in one batch. -/
theorem Orders.handled_add {line next : String} {m n : Nat} (orders : Orders line s.badge.scheduler.period m)
    (more : Orders next s.badge.scheduler.period n)
    (period : (s.deliver around m).state.badge.scheduler.period = s.badge.scheduler.period)
    (found : s.Finds now shelf around) (again : s.Finds now shelf other) :
    let first := s.handle around line
    let second := first.state.handle other next
    second.state.bare = (s.deliver around (m + n)).state.bare ∧
      (s.deliver around (m + n)).answer.tail = first.answer.tail ++ second.answer.tail := by
  intro first second
  obtain ⟨answer, -, said, state⟩ := orders.handled_withTranscript (x := s.transcript) found found
  have same : s.withTranscript s.transcript = s := rfl
  rw [same] at answer state
  obtain ⟨options, transcript⟩ := steps_frame (begun s) around s.badge.scheduler.period m
  let later := (s.deliver around m).state
  have after : later.Finds now shelf around := found.of_same options transcript
  -- The first line has made the transcript longer, so the second one begins where the ticks left it but for that.
  have wrote : (later.withTranscript (s.transcript.map (·.continued said))).Finds now shelf other :=
    again.continued options rfl
  have next : Orders next later.badge.scheduler.period n := by rwa [period]
  obtain ⟨answers, -, more, states⟩ := next.handled_withTranscript after wrote
  obtain ⟨whole, lines⟩ := deliver_add period n
  rw [← state] at answers states
  constructor
  · rw [whole]
    exact (congrArg bare states).trans rfl
  · rw [lines, ← answers, ← answer]

/-- The period is the same after ticks that are delivered. -/
theorem Course.deliver_period {earlier : List Moment} {first : Session} (course : Course first earlier s)
    (begun : Proper first.options first) (around : Surroundings) (n : Nat) :
    (s.deliver around n).state.badge.scheduler.period = s.badge.scheduler.period :=
  ((course.carriedOut around (.tick n)).proper begun).period.trans (course.proper begun).period.symm

/-- A line with ticks takes as many periods. -/
theorem Orders.handled_clock {line : String} {count : Nat} (orders : Orders line s.badge.scheduler.period count)
    (found : s.Finds now shelf around) :
    (s.handle around line).state.clock = .ofNanos (s.clock.nanos + count * s.badge.scheduler.period.nanos) := by
  rw [clock_eq (orders.handled_alike found found).state]
  exact steps_clock (begun s) around s.badge.scheduler.period count

section Periods

variable {period : Duration}

theorem ticksFor_eq (positive : 0 < period.nanos) (d : Duration) :
    ticksFor d period = min (periodsIn d period) (2 ^ 32 - 1) := by
  rw [ticksFor, Nat.max_eq_left positive, periodsIn, Nat.ceilDiv_eq_add_pred_div, Nat.add_sub_assoc positive]
  rfl

theorem nanos_ofMillis {millis : Nat} (short : millis < 2 ^ 64) :
    (Duration.ofMillis millis).nanos = millis * 1000000 := by
  simp only [Duration.ofMillis, Duration.nanos_ofNanos, Duration.maxNanos]
  omega

theorem periodsIn_ofMillis_add (positive : 0 < period.nanos) {first rest : Nat} (short : first + rest < 2 ^ 64)
    (whole : period.nanos ∣ first * 1000000) :
    periodsIn (.ofMillis (first + rest)) period =
      periodsIn (.ofMillis first) period + periodsIn (.ofMillis rest) period := by
  have one := nanos_ofMillis (Nat.lt_of_le_of_lt (Nat.le_add_right first rest) short)
  have other := nanos_ofMillis (Nat.lt_of_le_of_lt (Nat.le_add_left rest first) short)
  apply periodsIn_add positive
  · rw [nanos_ofMillis short, one, other, Nat.add_mul, Nat.add_comm]
  · rwa [one]

/-- A time orders as many ticks as cover it, up to the most that can be asked for. -/
theorem orders_advance {millis : Nat} (short : millis < 2 ^ 64) (positive : 0 < period.nanos) :
    Orders s!"advance {millis}" period (min (periodsIn (.ofMillis millis) period) (2 ^ 32 - 1)) :=
  .of_spells "advance" (.advance gap_space short) ⟨'a', rfl, rfl⟩ fun s same around => by
    rw [carryOut, same, ticksFor_eq positive]

end Periods

/-- Time that passes for a session in one batch, or in two, where it finds these surroundings. -/
structure Batched (s : Session) (period : Duration) (a b c : Surroundings) : Prop where
  /-- ticks in two batches are the same as in one, with the same lines below the summary -/
  ticks : ∀ m n, m + n < 2 ^ 32 →
    let first := s.handle a s!"tick {m}"
    let second := first.state.handle b s!"tick {n}"
    let whole := s.handle c s!"tick {m + n}"
    second.state.bare = whole.state.bare ∧ whole.answer.tail = first.answer.tail ++ second.answer.tail
  /-- a time is as many ticks as cover it, up to the most that can be asked for -/
  covered : ∀ millis < 2 ^ 64,
    Alike (s.handle a s!"advance {millis}")
      (s.handle b s!"tick {min (periodsIn (.ofMillis millis) period) (2 ^ 32 - 1)}")
  /-- the clock moves by the time asked for, and less than a period more -/
  clock : ∀ millis < 2 ^ 64, periodsIn (.ofMillis millis) period < 2 ^ 32 →
    s.clock.nanos + periodsIn (.ofMillis millis) period * period.nanos ≤ Duration.maxNanos →
    let later := (s.handle a s!"advance {millis}").state.clock
    s.clock.nanos + millis * 1000000 ≤ later.nanos ∧
      later.nanos < s.clock.nanos + millis * 1000000 + period.nanos
  /-- a time that ends with a period may pass first -/
  times : ∀ first rest, first + rest < 2 ^ 64 → periodsIn (.ofMillis (first + rest)) period < 2 ^ 32 →
    period.nanos ∣ first * 1000000 →
    ((s.handle a s!"advance {first}").state.handle b s!"advance {rest}").state.bare =
      (s.handle c s!"advance {first + rest}").state.bare

/-- Where the period stays, time passes in any batches. -/
theorem batched {a b c : Surroundings} (positive : 0 < s.badge.scheduler.period.nanos)
    (kept : ∀ n, (s.deliver a n).state.badge.scheduler.period = s.badge.scheduler.period)
    (inA : s.Finds now shelf a) (inB : s.Finds now shelf b) (inC : s.Finds now shelf c) :
    s.Batched s.badge.scheduler.period a b c := by
  refine ⟨?_, ?_, ?_, ?_⟩
  · intro m n few first second whole
    have tick {count : Nat} (less : count ≤ m + n) : Orders s!"tick {count}" s.badge.scheduler.period count :=
      orders_tick (Nat.lt_of_le_of_lt less few) s.badge.scheduler.period
    obtain ⟨state, lines⟩ := (tick (Nat.le_add_right m n)).handled_add (tick (Nat.le_add_left n m)) (kept m) inA inB
    have wholly := (tick (Nat.le_refl _)).handled_alike inA inC
    refine ⟨state.trans wholly.state.symm, ?_⟩
    rw [wholly.answer]
    exact lines
  · intro millis short
    have few : min (periodsIn (.ofMillis millis) s.badge.scheduler.period) (2 ^ 32 - 1) < 2 ^ 32 := by omega
    have ticked := (orders_tick few s.badge.scheduler.period).handled_alike inA inB
    exact ((orders_advance short positive).handled_alike inA inA).trans ticked.symm
  · intro millis short unclamped fits later
    have clock : later = _ := (orders_advance short positive).handled_clock inA
    have covers := periodsIn_covers positive (.ofMillis millis)
    rw [nanos_ofMillis short] at covers
    have all : min (periodsIn (.ofMillis millis) s.badge.scheduler.period) (2 ^ 32 - 1) =
        periodsIn (.ofMillis millis) s.badge.scheduler.period := Nat.min_eq_left (Nat.le_of_lt_succ unclamped)
    rw [clock, all, Duration.nanos_ofNanos, Nat.min_eq_left fits]
    omega
  · intro first rest short unclamped whole
    have sum := periodsIn_ofMillis_add positive short whole
    have one : Orders s!"advance {first}" s.badge.scheduler.period _ := orders_advance (by omega) positive
    have two : Orders s!"advance {rest}" s.badge.scheduler.period _ := orders_advance (by omega) positive
    have both : Orders s!"advance {first + rest}" s.badge.scheduler.period _ := orders_advance short positive
    rw [Nat.min_eq_left (by omega)] at one two both
    obtain ⟨state, -⟩ := one.handled_add two (kept _) inA inB
    rw [state, (both.handled_alike inA inC).state, sum]

/-- Time can be delivered in any batches: the period of the ticks stays, and as long as a session finds the same time
on the host and the same manifests of apps, it does not matter how what passes is spread over lines. -/
theorem time_in_batches (options : Options) (transcript : Option Transcript) (around : Surroundings)
    (inputs : List (Surroundings × String)) {s : Session}
    (reached : s = (start options transcript around).state.after inputs) :
    (∀ more, (s.after more).badge.scheduler.period = options.tickPeriod) ∧
      ∀ {now : Int} {shelf : Service.AppName → Option ByteArray} {a b c : Surroundings},
        s.Finds now shelf a → s.Finds now shelf b → s.Finds now shelf c → s.Batched s.badge.scheduler.period a b c := by
  let begun := (start options transcript around).state
  have properly : Proper options begun := proper_start options transcript around
  have course : Course begun ([] ++ begun.moments inputs) s := reached ▸ Course.begun.after inputs
  have same := (course.proper properly).period
  refine ⟨fun more => ((course.after more).proper properly).period, ?_⟩
  intro now shelf a b c inA inB inC
  exact batched (same ▸ options.tickPeriod_pos) (course.deliver_period properly a) inA inB inC

/-- In seven ticks this badge falls asleep, wakes and falls asleep again, and it does so in two and five. -/
theorem time_in_batches_dozer :
    dozer.Finds 0 (fun app => Surroundings.withApps.files.content? (AppStore.manifestPath dozing.root app.text))
        .withApps ∧
      dozer.Batched (.ofMillis 600) .withApps .withApps .withApps ∧
      (dozer.handle .withApps "tick 2").state.asleep = some ⟨some (.ofMillis 1400)⟩ ∧
      (dozer.handle .withApps "tick 7").answer.tail =
        ["+600ms entering deep sleep until 2000ms", "+3000ms wake timer fired", "boot #2 with 2 services",
          "+3600ms entering deep sleep until 2000ms"] := by
  have reached : dozer = (start dozing none .withApps).state.after [] := rfl
  have period : dozer.badge.scheduler.period = .ofMillis 600 := by decide +kernel
  have found : dozer.Finds 0
      (fun app => Surroundings.withApps.files.content? (AppStore.manifestPath dozing.root app.text)) .withApps :=
    ⟨rfl, fun more app => rfl⟩
  obtain ⟨-, batched⟩ := time_in_batches dozing none .withApps [] reached
  refine ⟨found, ?_, by decide +kernel, by decide +kernel⟩
  rw [← period]
  exact batched found found found

end Console.Session
end ConferenceBadge
