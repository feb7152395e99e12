import ConferenceBadge.Manifest.Basic
import ConferenceBadge.Proofs.Manifest.Json
import Mathlib.Data.List.Nodup

/-!
What the known members of an object say. They stand in a list, those of `wifi` after it (`knownIn`); the
list is flawed, or a required member is absent, or it declares a manifest. Only which members it holds
matters for that, not their order. `take` keeps one member of the list in what was read.
-/
namespace ConferenceBadge.Manifest
open Json

/-- What a manifest can tell of a value. -/
inductive Datum where
  | null
  | flag (b : Bool)
  /-- an integer that an API version may be, written with neither sign, fraction nor exponent -/
  | version (n : Nat)
  | object
  | other
deriving DecidableEq

namespace Datum

def ofNumber (n : Number) : Datum :=
  match n.plain? with
  | some v => if v ≤ Reader.largestVersion then version v else other
  | none => other

def ofValue : Value → Datum
  | .null => null
  | .flag b => flag b
  | .number n => ofNumber n
  | .string _ | .list _ => other
  | .object _ => object

/-- Whether a known member may have a value: null or one of its type. -/
def fits : Field → Datum → Bool
  | _, null => true
  | .apiVersion, version _ => true
  | .wifi, object => true
  | .rtc, flag _ | .loop, flag _ | .draw, flag _ | .wifiSetup, flag _ | .wifiLoop, flag _ => true
  | _, _ => false

end Datum

mutual

/-- The known members within the value of a known one: those of `wifi`. -/
def knownWithin (f : Field) : Value → List (Field × Datum)
  | .object members => if f = .wifi then knownIn .wifi members else []
  | .null | .flag _ | .number _ | .string _ | .list _ => []

/-- The known members of an object of this scope. Keys are compared as they are written. -/
def knownIn (scope : Scope) : Members → List (Field × Datum)
  | .close _ => []
  | .member _ key _ _ value _ rest =>
    (match scope.field? (String.ofList (Letter.raw key)) with
      | some f => (f, .ofValue value) :: knownWithin f value
      | none => []) ++ knownIn scope rest

end

/-- The members of an object, without the blanks between them. -/
def pairs : Members → List (List Letter × Value)
  | .close _ => []
  | .member _ key _ _ value _ rest => (key, value) :: pairs rest

/-- Whether a key names a member that is known. -/
def Scope.knows (scope : Scope) (m : List Letter × Value) : Bool :=
  (scope.field? (String.ofList (Letter.raw m.1))).isSome

/-- What a member that is known adds to the list. -/
def knownOf (scope : Scope) (m : List Letter × Value) : List (Field × Datum) :=
  match scope.field? (String.ofList (Letter.raw m.1)) with
  | some f => (f, .ofValue m.2) :: knownWithin f m.2
  | none => []

/-- Members that are not known do not count. -/
theorem knownIn_eq (scope : Scope) : (members : Members) →
    knownIn scope members = ((pairs members).filter scope.knows).flatMap (knownOf scope)
  | .close _ => rfl
  | .member _ key _ _ value _ rest => by
    rw [knownIn, pairs, knownIn_eq scope rest]
    cases known : scope.field? (String.ofList (Letter.raw key)) with
    | none =>
      rw [List.filter_cons_of_neg (by simp [Scope.knows, known])]
      rfl
    | some f =>
      rw [List.filter_cons_of_pos (by simp [Scope.knows, known]), List.flatMap_cons, knownOf, known]

/-- Nor does the order of the others. -/
theorem knownIn_perm {scope : Scope} {members others : Members}
    (same : ((pairs members).filter scope.knows).Perm ((pairs others).filter scope.knows)) :
    (knownIn scope members).Perm (knownIn scope others) := by
  rw [knownIn_eq, knownIn_eq]
  exact same.flatMap_right _

/-- A known key occurs twice, or has a value that is neither null nor of its type. -/
def Flawed (known : List (Field × Datum)) : Prop :=
  ¬ (known.map Prod.fst).Nodup ∨ ∃ m ∈ known, m.2.fits m.1 = false

instance (known : List (Field × Datum)) : Decidable (Flawed known) := inferInstanceAs (Decidable (_ ∨ _))

/-- A member is not there, or null. -/
def absent (known : List (Field × Datum)) (f : Field) : Bool := known.all fun m => m.1 ≠ f || m.2 = .null

/-- The members that have to be there, in the order in which they are asked for. -/
def required : List (Field × String) :=
  [(.wifi, "wifi"), (.wifiSetup, "wifi.setup"), (.apiVersion, "apiVersion"), (.rtc, "rtc"), (.loop, "loop"),
    (.draw, "draw")]

def firstAbsent (known : List (Field × Datum)) : Option String :=
  (required.find? fun r => absent known r.1).map (·.2)

/-- The manifest has exactly the values of the known members, and `wifi.loop` is `wifi.setup` unless it is
there. -/
structure Declares (known : List (Field × Datum)) (m : Manifest) : Prop where
  apiVersion : (.apiVersion, .version m.apiVersion) ∈ known
  wifiAtSetup : (.wifiSetup, .flag m.wifiAtSetup) ∈ known
  wifiAtLoop : (.wifiLoop, .flag m.wifiAtLoop) ∈ known ∨
    absent known .wifiLoop ∧ m.wifiAtLoop = m.wifiAtSetup
  needsClock : (.rtc, .flag m.needsClock) ∈ known
  wantsLoop : (.loop, .flag m.wantsLoop) ∈ known
  wantsDraw : (.draw, .flag m.wantsDraw) ∈ known

section Perm

variable {known others : List (Field × Datum)}

theorem Flawed.perm (flawed : Flawed known) (same : known.Perm others) : Flawed others := by
  rcases flawed with twice | ⟨m, member, unfit⟩
  · exact .inl (mt (same.map _).nodup_iff.mpr twice)
  · exact .inr ⟨m, same.mem_iff.mp member, unfit⟩

theorem absent_perm (same : known.Perm others) (f : Field) : absent known f = absent others f := same.all_eq

theorem absent_iff (f : Field) :
    absent known f = true ↔ ∀ d, (f, d) ∈ known → d = .null := by
  simp only [absent, List.all_eq_true, Bool.or_eq_true, decide_eq_true_eq]
  constructor
  · intro all d member
    exact (all (f, d) member).resolve_left fun other => other rfl
  · rintro all ⟨g, d⟩ member
    by_cases same : g = f
    · exact .inr (all d (same ▸ member))
    · exact .inl same

theorem firstAbsent_perm (same : known.Perm others) : firstAbsent known = firstAbsent others := by
  simp only [firstAbsent, absent_perm same]

theorem Declares.perm {m : Manifest} (declares : Declares known m) (same : known.Perm others) : Declares others m := by
  refine ⟨?_, ?_, ?_, ?_, ?_, ?_⟩
  · exact same.mem_iff.mp declares.apiVersion
  · exact same.mem_iff.mp declares.wifiAtSetup
  · rw [← absent_perm same, ← same.mem_iff]
    exact declares.wifiAtLoop
  · exact same.mem_iff.mp declares.needsClock
  · exact same.mem_iff.mp declares.wantsLoop
  · exact same.mem_iff.mp declares.wantsDraw

end Perm

/-- A list without flaws gives a member one value. -/
theorem datum_unique {known : List (Field × Datum)} (sound : ¬ Flawed known) {f : Field} {d e : Datum}
    (one : (f, d) ∈ known) (other : (f, e) ∈ known) : d = e := by
  have once : (known.map Prod.fst).Nodup := by
    by_contra twice
    exact sound (.inl twice)
  exact congrArg Prod.snd (List.inj_on_of_nodup_map once one other rfl)

theorem Declares.unique {known : List (Field × Datum)} (sound : ¬ Flawed known) {m n : Manifest}
    (one : Declares known m) (other : Declares known n) : m = n := by
  have flags {f : Field} {b c : Bool} (here : (f, .flag b) ∈ known) (there : (f, .flag c) ∈ known) : b = c :=
    Datum.flag.inj (datum_unique sound here there)
  have filled {b : Bool} (here : (.wifiLoop, .flag b) ∈ known) : ¬ absent known .wifiLoop := fun gone =>
    Datum.noConfusion ((absent_iff _).mp gone _ here)
  have version := Datum.version.inj (datum_unique sound one.apiVersion other.apiVersion)
  have setup := flags one.wifiAtSetup other.wifiAtSetup
  have loop : m.wifiAtLoop = n.wifiAtLoop := by
    rcases one.wifiAtLoop with here | ⟨gone, same⟩
    · rcases other.wifiAtLoop with there | ⟨gone, -⟩
      · exact flags here there
      · exact absurd gone (filled here)
    · rcases other.wifiAtLoop with there | ⟨-, same'⟩
      · exact absurd gone (filled there)
      · rw [same, same', setup]
  have clock := flags one.needsClock other.needsClock
  have wants := flags one.wantsLoop other.wantsLoop
  have draws := flags one.wantsDraw other.wantsDraw
  cases m
  cases n
  simp_all

/-- What was read with the value of a member. -/
def Datum.kept (f : Field) (s : Seen) : Datum → Seen
  | flag b => { s with flags := (f, b) :: s.flags }
  | version n => { s with apiVersion := some n }
  | object => { s with wifi := true }
  | null | other => s

/-- What was read with one more known member, unless its key has occurred or its value does not fit. -/
def take (s : Seen) (m : Field × Datum) : Option Seen :=
  if m.1 ∈ s.keys ∨ m.2.fits m.1 = false then none
  else some (m.2.kept m.1 { s with keys := m.1 :: s.keys })

/-- Exactly the known members were read. -/
structure Seen.Holds (known : List (Field × Datum)) (s : Seen) : Prop where
  sound : ¬ Flawed known
  keys : ∀ f, f ∈ s.keys ↔ f ∈ known.map Prod.fst
  version : ∀ n, s.apiVersion = some n ↔ (.apiVersion, .version n) ∈ known
  wifi : s.wifi = true ↔ (.wifi, .object) ∈ known
  flags : ∀ f b, s.flag? f = some b ↔ (f, .flag b) ∈ known

namespace Seen.Holds

variable {known : List (Field × Datum)} {s : Seen}

theorem nothing : Seen.nothing.Holds [] := by
  refine ⟨?_, ?_, ?_, ?_, ?_⟩ <;> simp [Flawed, Seen.nothing, Seen.flag?]

/-- What the value of a new member adds to what was read. -/
theorem kept (holds : s.Holds known) {f : Field} {d : Datum} (new : f ∉ s.keys) (fits : d.fits f = true) :
    (d.kept f { s with keys := f :: s.keys }).Holds (known ++ [(f, d)]) := by
  have fresh : ∀ e, (f, e) ∉ known := fun e member =>
    new ((holds.keys f).mpr (List.mem_map.mpr ⟨_, member, rfl⟩))
  have sound : ¬ Flawed (known ++ [(f, d)]) := by
    rintro (twice | ⟨m, member, unfit⟩)
    · refine twice ?_
      rw [List.map_append, List.map_singleton, ← List.concat_eq_append]
      refine List.Nodup.concat (fun old => new ((holds.keys f).mpr old)) ?_
      by_contra before
      exact holds.sound (.inl before)
    · rcases List.mem_append.mp member with old | last
      · exact holds.sound (.inr ⟨m, old, unfit⟩)
      · rw [List.mem_singleton.mp last, fits] at unfit
        contradiction
  have keys : ∀ g, g ∈ f :: s.keys ↔ g ∈ (known ++ [(f, d)]).map Prod.fst := by
    intro g
    rw [List.mem_cons, List.map_append, List.mem_append, holds.keys g, or_comm]
    simp
  cases d with
  | null =>
    refine ⟨sound, keys, fun n => ?_, ?_, fun g b => ?_⟩
    · simpa [Datum.kept] using holds.version n
    · simpa [Datum.kept] using holds.wifi
    · simpa [Datum.kept, Seen.flag?] using holds.flags g b
  | other => cases f <;> contradiction
  | version n =>
    obtain rfl : f = .apiVersion := by cases f <;> first | rfl | contradiction
    refine ⟨sound, keys, fun v => ?_, ?_, fun g b => ?_⟩
    · have gone := fresh (.version v)
      simp [Datum.kept, gone, eq_comm]
    · simpa [Datum.kept] using holds.wifi
    · simpa [Datum.kept, Seen.flag?] using holds.flags g b
  | object =>
    obtain rfl : f = .wifi := by cases f <;> first | rfl | contradiction
    refine ⟨sound, keys, fun n => ?_, ?_, fun g b => ?_⟩
    · simpa [Datum.kept] using holds.version n
    · simp [Datum.kept]
    · simpa [Datum.kept, Seen.flag?] using holds.flags g b
  | flag b =>
    refine ⟨sound, keys, fun n => ?_, ?_, fun g c => ?_⟩
    · simpa [Datum.kept] using holds.version n
    · simpa [Datum.kept] using holds.wifi
    · have before := holds.flags g c
      simp only [Seen.flag?] at before
      by_cases same : g = f
      · subst same
        have gone := fresh (.flag c)
        simp [Datum.kept, Seen.flag?, gone, eq_comm]
      · have other : (g == f) = false := beq_eq_false_iff_ne.mpr same
        simp [Datum.kept, Seen.flag?, List.lookup_cons, other, before, same]

/-- Members are kept one after the other, up to the first that does not fit or has occurred. -/
theorem fold (holds : s.Holds known) (rest : List (Field × Datum)) :
    match rest.foldlM take s with
    | some after => after.Holds (known ++ rest)
    | none => Flawed (known ++ rest) := by
  induction rest generalizing known s with
  | nil => exact (List.append_nil known).symm ▸ holds
  | cons m rest ih =>
    obtain ⟨f, d⟩ := m
    rw [List.foldlM_cons, List.append_cons]
    by_cases flaw : f ∈ s.keys ∨ d.fits f = false
    · have refused : take s (f, d) = none := if_pos flaw
      rw [refused]
      rcases flaw with known' | unfit
      · left
        intro once
        rw [List.map_append, List.map_append, List.map_singleton] at once
        exact (List.nodup_append.mp once.of_append_left).2.2 f ((holds.keys f).mp known') f List.mem_cons_self rfl
      · exact .inr ⟨(f, d), List.mem_append_left _ (List.mem_append_right _ List.mem_cons_self), unfit⟩
    · have accepted : take s (f, d) = some (d.kept f { s with keys := f :: s.keys }) := if_neg flaw
      obtain ⟨new, unfit⟩ := not_or.mp flaw
      rw [accepted]
      exact ih (holds.kept new (by simpa using unfit))

/-- A value that is there fits its member. -/
theorem fits (holds : s.Holds known) {f : Field} {d : Datum} (member : (f, d) ∈ known) : d.fits f = true := by
  by_contra unfit
  exact holds.sound (.inr ⟨_, member, by simpa using unfit⟩)

theorem absent_flag (holds : s.Holds known) {f : Field} (flag : f ≠ .apiVersion ∧ f ≠ .wifi) :
    absent known f = (s.flag? f).isNone := by
  rw [Bool.eq_iff_iff, absent_iff, Option.isNone_iff_eq_none]
  constructor
  · intro gone
    cases read : s.flag? f with
    | none => rfl
    | some b => exact absurd (gone _ ((holds.flags f b).mp read)) (by simp)
  · intro unread d member
    have fits := holds.fits member
    cases d with
    | null => rfl
    | flag b =>
      rw [(holds.flags f b).mpr member] at unread
      contradiction
    | version | object | other => cases f <;> contradiction

theorem absent_version (holds : s.Holds known) : absent known .apiVersion = s.apiVersion.isNone := by
  rw [Bool.eq_iff_iff, absent_iff, Option.isNone_iff_eq_none]
  constructor
  · intro gone
    cases read : s.apiVersion with
    | none => rfl
    | some n => exact absurd (gone _ ((holds.version n).mp read)) (by simp)
  · intro unread d member
    have fits := holds.fits member
    cases d with
    | null => rfl
    | version n =>
      rw [(holds.version n).mpr member] at unread
      contradiction
    | flag | object | other => contradiction

theorem absent_wifi (holds : s.Holds known) : absent known .wifi = !s.wifi := by
  rw [Bool.eq_iff_iff, absent_iff, Bool.not_eq_true']
  constructor
  · intro gone
    by_contra read
    exact absurd (gone _ (holds.wifi.mp (by simpa using read))) (by simp)
  · intro unread d member
    have fits := holds.fits member
    cases d with
    | null => rfl
    | object =>
      rw [holds.wifi.mpr member] at unread
      contradiction
    | flag | version | other => contradiction

/-- What was read makes a manifest, unless a member is absent that has to be there. -/
theorem ofSeen (holds : s.Holds known) :
    match firstAbsent known with
    | some name => Manifest.ofSeen s = .error (.missing name)
    | none => ∃ m, Manifest.ofSeen s = .ok m ∧ Declares known m := by
  have setup := holds.absent_flag (f := .wifiSetup) (by simp)
  have later := holds.absent_flag (f := .wifiLoop) (by simp)
  have clock := holds.absent_flag (f := .rtc) (by simp)
  have loop := holds.absent_flag (f := .loop) (by simp)
  have draw := holds.absent_flag (f := .draw) (by simp)
  simp only [firstAbsent, required, List.find?, holds.absent_wifi, setup, holds.absent_version, clock, loop, draw]
  rw [Manifest.ofSeen]
  -- The members are asked for in the order of `required`, so the first that is absent is reported.
  rcases wifi : s.wifi with _ | _
  · rfl
  rcases atSetup : s.flag? .wifiSetup with _ | b
  · rfl
  rcases version : s.apiVersion with _ | n
  · rfl
  rcases needsClock : s.flag? .rtc with _ | c
  · rfl
  rcases wantsLoop : s.flag? .loop with _ | l
  · rfl
  rcases wantsDraw : s.flag? .draw with _ | d
  · rfl
  refine ⟨_, rfl, (holds.version n).mp version, (holds.flags _ b).mp atSetup, ?_, (holds.flags _ c).mp needsClock,
    (holds.flags _ l).mp wantsLoop, (holds.flags _ d).mp wantsDraw⟩
  cases atLoop : s.flag? .wifiLoop with
  | none =>
    right
    rw [later, atLoop]
    exact ⟨rfl, rfl⟩
  | some b => exact .inl ((holds.flags _ b).mp atLoop)

end Seen.Holds
end ConferenceBadge.Manifest
