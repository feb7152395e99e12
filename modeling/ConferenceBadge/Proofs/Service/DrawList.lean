import ConferenceBadge.Key
import ConferenceBadge.Proofs.Deeds
import ConferenceBadge.Scheduler.Basic
import ConferenceBadge.Service.Running
import ConferenceBadge.Service.Startup
import Mathlib.Data.List.Nodup
import Mathlib.Data.List.Perm.Subperm
import Mathlib.Data.List.Range

/-!
The draw list. Which services still draw is kept twice, as a list of slots and as a mark on every slot, and
different code keeps each. Whatever a roster is used for, in whatever order and whatever the services, the
network and the registry do, the list has just the marked slots, in order (`drawList_marked`). So it is never
too long for the roster, it never leads to a slot that is not there, and one drawing draws every slot on it
once. A slot that has left the list does not come back.
-/
namespace ConferenceBadge

/-- The service that a deed draws. -/
def Deed.drawn? {σ : Type} : Deed (Service.World σ) → Option σ
  | .called (.draw service _) => some service
  | _ => none

namespace Service

variable {κ σ ψ ω : Type}

namespace Work

variable {α : Type} {allowed : Deed (World σ) → Prop} {post : α → Prop}

theorem keeps_on {c : Call σ} {next : Call.Answer c → Work κ σ α} (allow : allowed (.called c))
    (rest : ∀ a, (next a).Keeps allowed post) : (on c >>= next).Keeps allowed post := .call allow rest

theorem keeps_log {level : Log.Level} {text : String} {next : Unit → Work κ σ α}
    (allow : allowed (.noted ⟨level, .services, text⟩)) (rest : (next ()).Keeps allowed post) :
    (log level text >>= next).Keeps allowed post := .note allow rest

theorem keeps_bringUpWifi (connected : allowed (.called .connected)) (connect : allowed (.called .connect)) :
    (bringUpWifi : Work κ σ Bool).Keeps allowed fun _ => True := by
  refine keeps_on connected fun up => ?_
  split
  · exact Program.keeps_pure.mpr trivial
  · exact .call connect fun up => Program.keeps_pure.mpr trivial

theorem keeps_wifiIf (connected : allowed (.called .connected)) (connect : allowed (.called .connect)) {needed : Bool}
    {next : Bool → Work κ σ α} (rest : ∀ up, (next up).Keeps allowed post) :
    (if needed then bringUpWifi >>= next else pure true >>= next).Keeps allowed post := by
  split
  · exact .bind (keeps_bringUpWifi connected connect) fun up _ => rest up
  · exact rest true

end Work

namespace Slot

/-- The marks of slots that draw, in order. -/
def marks (slots : List (Slot σ)) : List Bool := slots.map (·.draws)

/-- The apps of slots, in order. -/
def names (slots : List (Slot σ)) : List AppName := slots.map (·.name)

/-- The services in the slots with these numbers. -/
def services (slots : List (Slot σ)) (numbers : List Nat) : List (Option σ) :=
  numbers.map fun number => slots[number]?.map (·.service)

variable {slots : List (Slot σ)} {number : Nat} {f : Slot σ → Slot σ}

/-- A change that leaves something of each slot leaves it of all of them. -/
theorem map_modify_same {β : Type} {g : Slot σ → β} (same : ∀ slot, g (f slot) = g slot) :
    (slots.modify number f).map g = slots.map g := by
  apply List.ext_getElem?
  intro i
  rw [List.getElem?_map, List.getElem?_modify, List.getElem?_map]
  cases slots[i]? with
  | none => rfl
  | some slot =>
    refine congrArg some ?_
    show g (if number = i then f slot else slot) = g slot
    split
    · exact same slot
    · rfl

/-- What is done to one slot leaves the services in others. -/
theorem services_modify {numbers : List Nat} (others : number ∉ numbers) :
    services (slots.modify number f) numbers = services slots numbers := by
  refine List.map_congr_left fun i member => ?_
  rw [List.getElem?_modify_ne]
  rintro rfl
  exact others member

end Slot

namespace Roster

/-- The services on the draw list, in order. -/
def toDraw (r : Roster σ) : List (Option σ) := Slot.services r.slots r.drawList

/-- The draw list has just the marked slots, in order. -/
structure Marked (r : Roster σ) : Prop where
  increasing : r.drawList.Pairwise (· < ·)
  listed : ∀ number, number ∈ r.drawList ↔ (Slot.marks r.slots)[number]? = some true

/-- What has become of a roster: its slots are still those of the same apps, and none of them has got onto the
draw list. -/
structure Follows (r last : Roster σ) : Prop where
  names : Slot.names r.slots <+: Slot.names last.slots
  listed : ∀ number < r.slots.length, number ∈ last.drawList → number ∈ r.drawList

namespace Marked

variable {r : Roster σ}

theorem empty (capacity : Nat) (config : Config) : Marked (Roster.empty capacity config : Roster σ) :=
  ⟨.nil, fun _ => by simp [Roster.empty, Slot.marks]⟩

theorem below (marked : Marked r) {number : Nat} (member : number ∈ r.drawList) : number < r.slots.length := by
  have found := (marked.listed number).mp member
  obtain ⟨bound, -⟩ := List.getElem?_eq_some_iff.mp found
  rwa [Slot.marks, List.length_map] at bound

/-- The draw list is no longer than the roster. -/
theorem length_le (marked : Marked r) : r.drawList.length ≤ r.slots.length := by
  have bound : r.drawList ⊆ List.range r.slots.length := fun number member => List.mem_range.mpr (marked.below member)
  have fewer := (List.subperm_of_subset marked.increasing.nodup bound).length_le
  rwa [List.length_range] at fewer

/-- One more slot gets onto the draw list if it is marked. -/
theorem grown (marked : Marked r) (slot : Slot σ) {last : Roster σ} (slots : last.slots = r.slots ++ [slot])
    (list : last.drawList = if slot.draws then r.drawList ++ [r.slots.length] else r.drawList) :
    Marked last ∧ Follows r last := by
  have member (number : Nat) :
      number ∈ last.drawList ↔ number ∈ r.drawList ∨ slot.draws = true ∧ number = r.slots.length := by
    rw [list]
    split <;> simp_all
  refine ⟨⟨?_, fun number => ?_⟩, ?_, fun number old listed => ?_⟩
  · rw [list]
    split
    · refine List.pairwise_append.mpr ⟨marked.increasing, List.pairwise_singleton _ _, fun number old new only => ?_⟩
      rw [List.mem_singleton.mp only]
      exact marked.below old
    · exact marked.increasing
  · have marks : Slot.marks last.slots = Slot.marks r.slots ++ [slot.draws] := by
      rw [slots, Slot.marks, List.map_append, List.map_singleton, Slot.marks]
    have length : (Slot.marks r.slots).length = r.slots.length := List.length_map _
    rw [member, marks, List.getElem?_append, length, marked.listed]
    split
    · next old => exact or_iff_left fun new => Nat.ne_of_lt old new.2
    · next beyond =>
      have here : number = r.slots.length ↔ number - r.slots.length = 0 := by omega
      rw [here, List.getElem?_eq_none (by omega), List.getElem?_singleton]
      split <;> simp_all
  · rw [slots, Slot.names, Slot.names, List.map_append]
    exact List.prefix_append _ _
  · rcases (member number).mp listed with there | ⟨-, new⟩
    · exact there
    · exact absurd new (Nat.ne_of_lt old)

end Marked

theorem Follows.refl (r : Roster σ) : Follows r r := ⟨List.prefix_rfl, fun _ _ listed => listed⟩

theorem Follows.trans {r middle last : Roster σ} (first : Follows r middle) (rest : Follows middle last) :
    Follows r last := by
  refine ⟨first.names.trans rest.names, fun number old listed => first.listed number old ?_⟩
  have longer := first.names.length_le
  simp only [Slot.names, List.length_map] at longer
  exact rest.listed number (Nat.lt_of_lt_of_le old longer) listed

/-- Nothing that is known of the draw list is about the rest of a roster. -/
theorem Marked.of_same {r last : Roster σ} (marked : Marked r) (list : last.drawList = r.drawList)
    (marks : Slot.marks last.slots = Slot.marks r.slots) (names : Slot.names last.slots = Slot.names r.slots) :
    Marked last ∧ Follows r last := by
  refine ⟨⟨?_, ?_⟩, ?_, ?_⟩
  · rw [list]
    exact marked.increasing
  · rw [list, marks]
    exact marked.listed
  · simp only [names, List.prefix_rfl]
  · rw [list]
    exact fun _ _ listed => listed

/-- The line about a service that finds no place on the draw list. -/
def drawListFull (name : AppName) : Log.Line := ⟨.warn, .services, s!"draw list full, {name.text} will not draw"⟩

/-- What starting services does: nothing is drawn, and no service lacks a place on the draw list. -/
def Starting (d : Deed (World σ)) : Prop := d.drawn? = none ∧ ∀ name, d ≠ .noted (drawListFull name)

theorem starting_called {c : Call σ} (undrawn : (Deed.called c : Deed (World σ)).drawn? = none) :
    Starting (.called c : Deed (World σ)) := ⟨undrawn, fun name same => by contradiction⟩

/-- A line is not that about the draw list if it has another level, comes from another part, or begins with
another letter. -/
theorem starting_noted {line : Log.Line}
    (other : line.level = .warn → line.source = .services → line.text.toList.head? ≠ some 'd') :
    Starting (.noted line : Deed (World σ)) := by
  refine ⟨rfl, fun name same => ?_⟩
  obtain rfl := Deed.noted.inj same
  refine other rfl rfl ?_
  simp [drawListFull, toString]

theorem keeps_requireWifi (manifest : Manifest) (failed : Bool) :
    (requireWifi manifest failed : Work κ σ _).Keeps Starting fun _ => True := by
  unfold requireWifi
  split
  · split
    · exact Program.keeps_pure.mpr trivial
    · refine .bind (Work.keeps_bringUpWifi (starting_called rfl) (starting_called rfl)) fun up _ => ?_
      split <;> exact Program.keeps_pure.mpr trivial
  · exact Program.keeps_pure.mpr trivial

theorem keeps_requireClock (r : Roster σ) (name : AppName) (manifest : Manifest) (failed : Bool) :
    (r.requireClock name manifest failed : Work κ σ _).Keeps Starting fun _ => True := by
  unfold requireClock
  split
  · refine Work.keeps_on (starting_called rfl) fun time => ?_
    split
    · split
      · exact Program.keeps_pure.mpr trivial
      · refine Work.keeps_log (starting_noted (by simp)) (Work.keeps_on (starting_called rfl) fun set => ?_)
        split
        · exact Work.keeps_log (starting_noted (by simp [toString])) (Program.keeps_pure.mpr trivial)
        · exact Program.keeps_pure.mpr trivial
    · exact Program.keeps_pure.mpr trivial
  · exact Program.keeps_pure.mpr trivial

theorem keeps_manifestOf (r : Roster σ) (name : AppName) :
    (r.manifestOf name : Work κ σ _).Keeps Starting fun _ => True := by
  refine Work.keeps_on (starting_called rfl) fun text => ?_
  cases text with
  | error e => exact Program.keeps_pure.mpr trivial
  | ok text =>
    simp only
    split
    · next rejection parsed =>
      refine .noting (fun line noted => starting_noted fun warn _ => ?_) (Program.keeps_pure.mpr trivial)
      cases rejection with
      | malformed cause => simp_all [Manifest.Rejection.lines]
      | missing name => contradiction
      | incompatible found expected => contradiction
    · split <;> exact Program.keeps_pure.mpr trivial

theorem keeps_ready (r : Roster σ) (name : AppName) (hostDraws failed : Bool) :
    (r.ready name hostDraws failed : Work κ σ _).Keeps Starting fun _ => True := by
  refine .bind (keeps_manifestOf r name) fun manifest _ => ?_
  cases manifest with
  | error e => exact Program.keeps_pure.mpr trivial
  | ok manifest =>
    refine Work.keeps_on (starting_called rfl) fun service => ?_
    cases service with
    | error e => exact Program.keeps_pure.mpr trivial
    | ok service =>
      refine .bind (keeps_requireWifi manifest failed) fun wifi _ => ?_
      cases wifi with
      | error e => exact Program.keeps_pure.mpr trivial
      | ok _ =>
        refine .bind (keeps_requireClock r name manifest failed) fun clock _ => ?_
        cases clock with
        | error e => exact Program.keeps_pure.mpr trivial
        | ok _ =>
          refine Work.keeps_on (starting_called rfl) fun setUp => ?_
          obtain ⟨result, service⟩ := setUp
          cases result <;> exact Program.keeps_pure.mpr trivial

theorem keeps_registerLoop (key : TaskKey → κ) (number : Nat) (slot : Slot σ) :
    (registerLoop key number slot).Keeps Starting fun _ => True := by
  unfold registerLoop
  split
  · refine .add fun added => ?_
    cases added with
    | ok handle => exact Program.keeps_pure.mpr trivial
    | error e => exact Work.keeps_log (starting_noted (by simp [toString])) (Program.keeps_pure.mpr trivial)
  · exact Program.keeps_pure.mpr trivial

/-- A service that is enlisted finds a place on the draw list, as there is one for every slot. -/
theorem keeps_enlist {r : Roster σ} (marked : Marked r) (room : r.hasRoom = true) (key : TaskKey → κ) (slot : Slot σ) :
    (r.enlist key slot).Keeps Starting fun last => Marked last ∧ Follows r last := by
  simp only [hasRoom, Bool.and_eq_true, decide_eq_true_eq] at room
  have free : r.drawList.length < r.capacity := Nat.lt_of_le_of_lt marked.length_le room.2
  refine .bind (keeps_registerLoop key r.slots.length slot) fun loopTask _ => ?_
  simp only [free, ↓reduceIte]
  split
  · next draws =>
    exact Program.keeps_pure.mpr (marked.grown { slot with loopTask } rfl (by simp [draws]))
  · next idle =>
    exact Program.keeps_pure.mpr (marked.grown { slot with loopTask } rfl (by simp [idle]))

theorem keeps_start {r : Roster σ} (marked : Marked r) (key : TaskKey → κ) (name : AppName) (hostDraws failed : Bool) :
    (r.start key name hostDraws failed).Keeps Starting fun result =>
      ∀ last, result = .ok last → Marked last ∧ Follows r last := by
  refine .bind (keeps_ready r name hostDraws failed) fun ready _ => ?_
  cases ready with
  | error e => exact Program.keeps_pure.mpr fun last ok => by contradiction
  | ok slot =>
    simp only
    split
    · next room =>
      refine .bind (keeps_enlist marked room key slot) fun started kept => Program.keeps_pure.mpr ?_
      rintro last ⟨⟩
      exact kept
    · exact Program.keeps_pure.mpr fun last ok => by contradiction

theorem keeps_startAll (key : TaskKey → κ) (hostDraws : Bool) (indices : List Nat) (failed : Bool) {r : Roster σ}
    (marked : Marked r) :
    (startAll key hostDraws indices failed r).Keeps Starting fun last => Marked last ∧ Follows r last := by
  induction indices generalizing failed r with
  | nil => exact Program.keeps_pure.mpr ⟨marked, .refl r⟩
  | cons index rest ih =>
    rw [startAll]
    refine Work.keeps_on (starting_called rfl) fun name => ?_
    cases name with
    | none => exact Work.keeps_log (starting_noted (by simp)) (ih failed marked)
    | some name =>
      refine .bind (keeps_start marked key name hostDraws failed) fun result started => ?_
      cases result with
      | error reason => exact Work.keeps_log (starting_noted (by simp)) (ih _ marked)
      | ok next =>
        obtain ⟨marked, follows⟩ := started next rfl
        refine Work.keeps_log (starting_noted (by simp)) ((ih failed marked).mono ?_)
        rintro last ⟨marked, rest⟩
        exact ⟨marked, follows.trans rest⟩

theorem keeps_registerDraw {r : Roster σ} (marked : Marked r) (key : TaskKey → κ) (hostDraws : Bool) :
    (r.registerDraw key hostDraws).Keeps Starting fun ran => Marked ran.2 ∧ Follows r ran.2 := by
  unfold registerDraw
  split
  · exact Program.keeps_pure.mpr ⟨marked, .refl r⟩
  · refine .add fun added => ?_
    cases added with
    | ok handle => exact Work.keeps_log (starting_noted (by simp)) (Program.keeps_pure.mpr (marked.of_same rfl rfl rfl))
    | error e => exact Work.keeps_log (starting_noted (by simp [toString])) (Program.keeps_pure.mpr ⟨marked, .refl r⟩)

theorem keeps_startInstalled {r : Roster σ} (marked : Marked r) (key : TaskKey → κ) (hostDraws : Bool) :
    (r.startInstalled key hostDraws).Keeps Starting fun ran => Marked ran.2 ∧ Follows r ran.2 := by
  refine Work.keeps_on (starting_called rfl) fun count => ?_
  cases count with
  | error e => exact Work.keeps_log (starting_noted (by simp [toString])) (Program.keeps_pure.mpr ⟨marked, .refl r⟩)
  | ok count =>
    refine .bind (keeps_startAll key hostDraws (List.range count) false marked) fun started kept => ?_
    refine (keeps_registerDraw kept.1 key hostDraws).mono ?_
    rintro ran ⟨marked, rest⟩
    exact ⟨marked, kept.2.trans rest⟩

theorem Marked.modify {r : Roster σ} (marked : Marked r) (number : Nat) {f : Slot σ → Slot σ}
    (draws : ∀ slot, (f slot).draws = slot.draws) (names : ∀ slot, (f slot).name = slot.name) :
    Marked (r.modify number f) ∧ Follows r (r.modify number f) :=
  marked.of_same rfl (Slot.map_modify_same draws) (Slot.map_modify_same names)

/-- A run of a loop draws nothing. -/
theorem keeps_loopOnce {r : Roster σ} (marked : Marked r) (number : Nat) :
    (r.loopOnce number : Work κ σ _).Keeps (fun d => d.drawn? = none) fun ran => Marked ran.2 ∧ Follows r ran.2 := by
  have same : Marked r ∧ Follows r r := ⟨marked, .refl r⟩
  unfold loopOnce
  cases r.slots[number]? with
  | none => exact Program.keeps_pure.mpr same
  | some slot =>
    refine Work.keeps_wifiIf (by rfl) (by rfl) fun up => ?_
    cases up with
    | false => exact Work.keeps_log rfl (Program.keeps_pure.mpr same)
    | true =>
      refine Work.keeps_on rfl ?_
      rintro ⟨result, service⟩
      cases result with
      | ok outcome =>
        refine Program.keeps_pure.mpr (marked.modify number ?_ ?_) <;> exact fun _ => rfl
      | error e =>
        refine Work.keeps_log rfl (Program.keeps_pure.mpr (marked.modify number ?_ ?_)) <;> exact fun _ => rfl

/-- What is known of a drawing after these slots: each of them was drawn once, in order, and kept if it is still
marked; the other slots are as they were. -/
structure Drawing.Covers (numbers : List Nat) (d : Drawing σ) (deeds : List (Deed (World σ))) (last : Drawing σ) :
    Prop where
  drawn : (deeds.filterMap Deed.drawn?).map some = Slot.services d.slots numbers
  kept : last.kept = d.kept ++ numbers.filter fun number => (Slot.marks last.slots)[number]? = some true
  others : ∀ number ∉ numbers, last.slots[number]? = d.slots[number]?
  names : Slot.names last.slots = Slot.names d.slots

/-- One slot is drawn. -/
theorem Drawing.always_slot (d : Drawing σ) {number : Nat} (there : number < d.slots.length) :
    (d.slot number : Work κ σ (Drawing σ)).Always (Covers [number] d) := by
  have drawn (deeds : List (Deed (World σ))) (service : σ) (keeps : Bool) (last : Drawing σ)
      (one : deeds.filterMap Deed.drawn? = [d.slots[number].service])
      (slots : last.slots = (d.drawn number service keeps).slots)
      (kept : last.kept = (d.drawn number service keeps).kept) : Covers [number] d deeds last := by
    refine ⟨?_, ?_, fun other apart => ?_, ?_⟩
    · simp [one, Slot.services, there]
    · cases keeps <;> simp [slots, kept, Drawing.drawn, Slot.marks, there]
    · rw [slots]
      exact List.getElem?_modify_ne _ _ fun same => apart (List.mem_singleton.mpr same.symm)
    · rw [slots]
      exact Slot.map_modify_same fun _ => rfl
  unfold Drawing.slot
  rw [List.getElem?_eq_getElem there]
  simp only [Program.always_bind, Work.on, Program.always_call, Program.always_done]
  rintro ⟨result, service⟩
  cases result with
  | ok report =>
    simp only
    split
    · exact drawn _ service true _ rfl rfl rfl
    · exact drawn _ service false _ rfl rfl rfl
  | error e => exact drawn _ service false _ rfl rfl rfl

theorem Drawing.Covers.cons {number : Nat} {numbers : List Nat} {d next last : Drawing σ}
    {deeds more : List (Deed (World σ))} (first : Covers [number] d deeds next) (rest : Covers numbers next more last)
    (apart : number ∉ numbers) : Covers (number :: numbers) d (deeds ++ more) last := by
  refine ⟨?_, ?_, fun other outside => ?_, rest.names.trans first.names⟩
  · have same : Slot.services next.slots numbers = Slot.services d.slots numbers := by
      refine List.map_congr_left fun later member => ?_
      rw [first.others later]
      rintro (_ | ⟨_, none⟩)
      · exact apart member
      · contradiction
    rw [List.filterMap_append, List.map_append, first.drawn, rest.drawn, same]
    rfl
  · have same : (Slot.marks last.slots)[number]? = (Slot.marks next.slots)[number]? := by
      simp only [Slot.marks, List.getElem?_map, rest.others number apart]
    rw [rest.kept, first.kept, List.append_assoc, List.filter_cons, List.filter_cons, List.filter_nil, same]
    split <;> rfl
  · obtain ⟨differs, later⟩ := not_or.mp (mt List.mem_cons.mpr outside)
    rw [rest.others other later, first.others other (by simpa using differs)]

theorem Drawing.always_through {numbers : List Nat} (once : numbers.Nodup) (d : Drawing σ)
    (there : ∀ number ∈ numbers, number < d.slots.length) :
    (through numbers d : Work κ σ (Drawing σ)).Always (Covers numbers d) := by
  induction numbers generalizing d with
  | nil => exact ⟨rfl, (List.append_nil _).symm, fun _ _ => rfl, rfl⟩
  | cons number rest ih =>
    obtain ⟨apart, once⟩ := List.nodup_cons.mp once
    obtain ⟨here, there⟩ := List.forall_mem_cons.mp there
    rw [through, Program.always_bind]
    refine (always_slot d here).mono fun deeds next first => ?_
    have length := congrArg List.length first.names
    simp only [Slot.names, List.length_map] at length
    refine (ih once next fun number member => length ▸ there number member).mono fun more last rest => ?_
    exact first.cons rest apart

/-- A drawing of all slots on the list leaves the marked ones on it. -/
theorem Drawing.Covers.leaves {r last : Roster σ} {first d : Drawing σ} {deeds : List (Deed (World σ))}
    (covers : Covers r.drawList first deeds d) (marked : Marked r) (began : first.slots = r.slots)
    (none : first.kept = []) (slots : last.slots = d.slots) (list : last.drawList = d.kept) :
    Marked last ∧ Follows r last := by
  have kept := list.trans covers.kept
  rw [none, List.nil_append, ← slots] at kept
  refine ⟨⟨?_, fun number => ?_⟩, ?_, fun number _ listed => ?_⟩
  · rw [kept]
    exact marked.increasing.filter _
  · rw [kept, List.mem_filter, decide_eq_true_eq]
    refine and_iff_right_of_imp fun still => ?_
    by_contra outside
    have same : (Slot.marks last.slots)[number]? = (Slot.marks r.slots)[number]? := by
      simp only [Slot.marks, List.getElem?_map, slots, covers.others number outside, began]
    exact outside ((marked.listed number).mpr (same.symm.trans still))
  · simp only [slots, covers.names, began, List.prefix_rfl]
  · rw [kept] at listed
    exact (List.mem_filter.mp listed).1

/-- A scheduled drawing draws each slot on the list once. -/
theorem always_drawScheduled {r : Roster σ} (marked : Marked r) :
    (r.drawScheduled : Work κ σ _).Always fun deeds ran =>
      (deeds.filterMap Deed.drawn?).map some = r.toDraw ∧ Marked ran.2 ∧ Follows r ran.2 := by
  simp only [drawScheduled, Program.always_bind, Work.on, Program.always_call, Program.always_done]
  intro began budget
  have through := Drawing.always_through (κ := κ) marked.increasing.nodup
    { slots := r.slots, budget, soonest := none, kept := [] } fun number member => marked.below member
  refine through.mono fun deeds d covers => ?_
  have drawn (last : List (Deed (World σ))) (quiet : last.filterMap Deed.drawn? = []) :
      ((.called .beginDrawing :: .called .height :: (deeds ++ last) : List (Deed (World σ))).filterMap
        Deed.drawn?).map some = r.toDraw := by
    rw [List.filterMap_cons_none rfl, List.filterMap_cons_none rfl, List.filterMap_append, quiet, List.append_nil]
    exact covers.drawn
  cases d.soonest with
  | none => exact fun ended => ⟨drawn _ rfl, covers.leaves marked rfl rfl rfl rfl⟩
  | some interval =>
    simp only
    split <;> exact fun ended => ⟨drawn _ rfl, covers.leaves marked rfl rfl rfl rfl⟩

/-- Drawing slots once leaves the draw list and the marks. -/
theorem always_drawOnce {numbers : List Nat} (once : numbers.Nodup) (budget : Nat) {r : Roster σ}
    (there : ∀ number ∈ numbers, number < r.slots.length) (marked : Marked r) :
    (drawOnce numbers budget r : Work κ σ (Roster σ)).Always fun deeds last =>
      (deeds.filterMap Deed.drawn?).map some = Slot.services r.slots numbers ∧ Marked last ∧ Follows r last := by
  induction numbers generalizing budget r with
  | nil => exact ⟨rfl, marked, .refl r⟩
  | cons number rest ih =>
    obtain ⟨apart, once⟩ := List.nodup_cons.mp once
    obtain ⟨here, there⟩ := List.forall_mem_cons.mp there
    simp only [drawOnce, List.getElem?_eq_getElem here, Program.always_bind, Work.on, Program.always_call,
      Program.always_done]
    rintro ⟨result, service⟩
    obtain ⟨kept, follows⟩ := marked.modify number (f := fun s => { s with service }) (fun _ => rfl) fun _ => rfl
    have goes (left : Nat) := ih once left (r := r.modify number fun s => { s with service })
      (by simpa [modify] using there) kept
    have services : Slot.services r.slots (number :: rest) =
        some r.slots[number].service :: Slot.services (r.modify number fun s => { s with service }).slots rest := by
      rw [modify, Slot.services_modify apart, Slot.services, Slot.services, List.map_cons,
        List.getElem?_eq_getElem here]
      rfl
    rw [services]
    cases result with
    | ok report =>
      refine (goes _).mono ?_
      rintro more last ⟨drawn, marked, later⟩
      exact ⟨congrArg (_ :: ·) drawn, marked, follows.trans later⟩
    | error e =>
      refine (goes _).mono ?_
      rintro more last ⟨drawn, marked, later⟩
      exact ⟨congrArg (_ :: ·) drawn, marked, follows.trans later⟩

theorem always_drawExtra {r : Roster σ} (marked : Marked r) :
    (r.drawExtra : Work κ σ (Roster σ)).Always fun deeds last =>
      (deeds.filterMap Deed.drawn?).map some = r.toDraw ∧ Marked last ∧ Follows r last :=
  fun budget => always_drawOnce marked.increasing.nodup budget (fun _ member => marked.below member) marked

end Roster

/-- What a roster may be used for. -/
inductive Use (κ : Type) where
  /-- start the installed apps, under these keys -/
  | install (key : TaskKey → κ) (hostDraws : Bool)
  /-- run the loop of a slot -/
  | loop (number : Nat)
  /-- draw as the drawing task does -/
  | draw
  /-- draw outside the scheduler -/
  | drawExtra

/-- Whether services are drawn. -/
def Use.draws : Use κ → Bool
  | install .. | loop _ => false
  | draw | drawExtra => true

/-- A roster put to a use, among anything around it. -/
structure Occasion (κ σ ψ ω : Type) where
  use : Use κ
  registry : Registry κ ψ
  handler : Handler (World σ) ω
  state : ψ
  world : ω

namespace Roster

def use (r : Roster σ) : Use κ → Work κ σ (Roster σ)
  | .install key hostDraws => do return (← r.startInstalled key hostDraws).2
  | .loop number => do return (← r.loopOnce number).2
  | .draw => do return (← r.drawScheduled).2
  | .drawExtra => r.drawExtra

/-- What is done on an occasion. -/
def deedsOn (r : Roster σ) (o : Occasion κ σ ψ ω) : List (Deed (World σ)) :=
  (r.use o.use).deeds o.registry o.handler o.state o.world

/-- What an occasion leaves. -/
def on (r : Roster σ) (o : Occasion κ σ ψ ω) : Roster σ :=
  ((r.use o.use).run o.registry o.handler o.state o.world).answer

/-- What one occasion after the other leaves. -/
def after (r : Roster σ) (history : List (Occasion κ σ ψ ω)) : Roster σ := history.foldl on r

theorem always_use {r : Roster σ} (marked : Marked r) (use : Use κ) :
    (r.use use).Always fun deeds last =>
      ((∀ key hostDraws, use = .install key hostDraws → ∀ name, .noted (drawListFull name) ∉ deeds) ∧
        (deeds.filterMap Deed.drawn?).map some = if use.draws then r.toDraw else []) ∧
      Marked last ∧ Follows r last := by
  have undrawn {deeds : List (Deed (World σ))} (quiet : ∀ d ∈ deeds, d.drawn? = none) :
      (deeds.filterMap Deed.drawn?).map some = [] := by
    rw [List.filterMap_eq_nil_iff.mpr quiet]
    rfl
  cases use with
  | install key hostDraws =>
    refine Program.always_bind.mpr (Program.Always.mono (keeps_startInstalled marked key hostDraws) ?_)
    rintro deeds ran ⟨starting, kept⟩
    rw [Program.always_pure, List.append_nil]
    refine ⟨⟨fun _ _ _ name noted => (starting _ noted).2 name rfl, ?_⟩, kept⟩
    exact undrawn fun d there => (starting d there).1
  | loop number =>
    refine Program.always_bind.mpr (Program.Always.mono (keeps_loopOnce marked number) ?_)
    rintro deeds ran ⟨quiet, kept⟩
    rw [Program.always_pure, List.append_nil]
    exact ⟨⟨fun _ _ other => by contradiction, undrawn quiet⟩, kept⟩
  | draw =>
    refine Program.always_bind.mpr ((always_drawScheduled marked).mono ?_)
    rintro deeds ran ⟨drawn, kept⟩
    rw [Program.always_pure, List.append_nil]
    exact ⟨⟨fun _ _ other => by contradiction, drawn⟩, kept⟩
  | drawExtra =>
    refine (always_drawExtra marked).mono ?_
    rintro deeds last ⟨drawn, kept⟩
    exact ⟨⟨fun _ _ other => by contradiction, drawn⟩, kept⟩

/-- What is known of the draw list stays known, occasion after occasion. -/
theorem Marked.after {r : Roster σ} (marked : Marked r) (history : List (Occasion κ σ ψ ω)) :
    Marked (r.after history) ∧ Follows r (r.after history) := by
  induction history generalizing r with
  | nil => exact ⟨marked, .refl r⟩
  | cons o rest ih =>
    obtain ⟨-, next, follows⟩ := (always_use marked o.use).run o.registry o.handler o.state o.world
    obtain ⟨last, later⟩ := ih next
    exact ⟨last, follows.trans later⟩

/-- The draw list. After any occasions it has just the marked slots, in order, all of which are there. No service
that starts lacks a place on it; each drawing draws the services in its slots, each once and in order, and nothing
is drawn otherwise. Slots stay those of their apps, and one that is not on the list never gets onto it again. -/
theorem drawList_marked (capacity : Nat) (config : Config) (history : List (Occasion κ σ ψ ω)) :
    let r := (Roster.empty capacity config : Roster σ).after history
    r.drawList.Pairwise (· < ·) ∧ (∀ number ∈ r.drawList, number < r.slots.length) ∧
      (∀ number, number ∈ r.drawList ↔ ∃ slot, r.slots[number]? = some slot ∧ slot.draws = true) ∧
      (∀ o : Occasion κ σ ψ ω,
        (∀ key hostDraws, o.use = .install key hostDraws → ∀ name, .noted (drawListFull name) ∉ r.deedsOn o) ∧
          ((r.deedsOn o).filterMap Deed.drawn?).map some = if o.use.draws then r.toDraw else []) ∧
      ∀ later : List (Occasion κ σ ψ ω), Slot.names r.slots <+: Slot.names (r.after later).slots ∧
        ∀ number < r.slots.length, number ∉ r.drawList → number ∉ (r.after later).drawList := by
  intro r
  obtain ⟨marked, -⟩ : Marked r ∧ Follows _ r := (Marked.empty capacity config).after history
  refine ⟨marked.increasing, fun number => marked.below, fun number => ?_, fun o => ?_, fun later => ?_⟩
  · rw [marked.listed, Slot.marks, List.getElem?_map, Option.map_eq_some_iff]
  · exact ((always_use marked o.use).run o.registry o.handler o.state o.world).1
  · obtain ⟨-, names, listed⟩ := marked.after later
    exact ⟨names, fun number old outside back => outside (listed number old back)⟩

/-- Two apps that are to draw: the first fails to, and the other goes on every minute. -/
def twoDrawers : Handler (World String) Unit
  | .count, w => ⟨.ok 2, w, []⟩
  | .name index, w => ⟨AppName.ofString? (["broken", "sound"].getD index ""), w, []⟩
  | .manifest _ _, w =>
    let wifi := "\x7b\"setup\": false\x7d"
    let tasks := "\"loop\": false, \"draw\": true"
    ⟨.ok ("\x7b\"apiVersion\": 2, \"wifi\": " ++ wifi ++ ", \"rtc\": false, " ++ tasks ++ "\x7d"), w, []⟩
  | .service app, w => ⟨.ok app.text, w, []⟩
  | .connected, w | .connect, w | .setClock, w => ⟨true, w, []⟩
  | .time, w | .height, w => ⟨100, w, []⟩
  | .setUp service, w => ⟨(.ok (), service), w, []⟩
  | .loop service, w => ⟨(.ok .remove, service), w, []⟩
  | .draw service _, w =>
    ⟨(if service = "broken" then .error .notProvided else .ok (.repeating (.ofSeconds 60) 10), service), w, []⟩
  | .beginDrawing, w | .endDrawing, w => ⟨(), w, []⟩

/-- Both are drawn until the first one fails; from then on it is not, though the apps are started again. -/
theorem drawList_marked_twoDrawers :
    let put (use : Use Key) : Occasion Key String (Scheduler Key Unit) Unit :=
      ⟨use, Scheduler.registry, twoDrawers, .empty 3 (), ()⟩
    let install := put (.install Key.service true)
    let started := (empty 3 .standard : Roster String).after [install]
    let drawn := (empty 3 .standard : Roster String).after [install, put .draw]
    (started.drawList = [0, 1] ∧ drawn.drawList = [1] ∧ 0 < drawn.slots.length ∧ 0 ∉ drawn.drawList ∧
        (drawn.after [install]).drawList = [1, 2] ∧ (drawn.after [install, install]).slots.length = 3) ∧
      ((started.deedsOn (put .draw)).filterMap Deed.drawn?).map some = [some "broken", some "sound"] ∧
      (∀ name, .noted (drawListFull name) ∉ started.deedsOn install) ∧
      0 ∉ (drawn.after [install, put .draw, install]).drawList := by
  intro put install started drawn
  obtain ⟨-, -, -, now, -⟩ := drawList_marked 3 .standard [install]
  obtain ⟨-, -, -, -, later⟩ := drawList_marked 3 .standard [install, put .draw]
  have evaluated : started.drawList = [0, 1] ∧ drawn.drawList = [1] ∧ 0 < drawn.slots.length ∧ 0 ∉ drawn.drawList ∧
      (drawn.after [install]).drawList = [1, 2] ∧ (drawn.after [install, install]).slots.length = 3 := by decide +kernel
  have listed : started.toDraw = [some "broken", some "sound"] := by decide +kernel
  refine ⟨evaluated, (now (put .draw)).2.trans listed, (now install).1 _ _ rfl, ?_⟩
  exact (later _).2 0 evaluated.2.2.1 evaluated.2.2.2.1

end Roster
end Service
end ConferenceBadge
