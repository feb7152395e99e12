import ConferenceBadge.Proofs.Badge.Drawing
import ConferenceBadge.Proofs.Service.Startup

/-!
How many services draw. Which service an app gets depends on its name, and only two names get one that
draws. So where the installed apps have distinct names, at most two slots on the draw list draw
(`Emulator.drawers_boot`).
-/
namespace ConferenceBadge

/-- No two apps that were found share a name. -/
def AppStore.Distinct (names : Option (List String)) : Prop := (names.getD []).Nodup

/-- What the emulated badge may rely on at boot: apps by their places in the store, services by the names of
apps, and setups that leave services as they are. -/
def Devices.shelf (store : AppStore) : (Service.World DemoService).Rely
  | .name index, name => name = store.name? index
  | .service app, service => service = AppStore.service app.text
  | .setUp service, (_, last) => last = service
  | _, _ => True

theorem Devices.shelf_kept (now : Int) (store : AppStore) (c : Service.Call DemoService) (devices : Devices) :
    shelf store c (world now store c devices).answer := by
  cases c with
  | name index => rfl
  | service app => rfl
  | setUp service => rfl
  | _ => trivial

theorem AppStore.names_of_name? {store : AppStore} {index : Nat} {name : Service.AppName}
    (found : store.name? index = some name) : (store.names.getD [])[index]? = some name.text := by
  simp only [name?, Option.bind_eq_bind, Option.bind_eq_some_iff] at found
  obtain ⟨names, known, text, there, fits⟩ := found
  unfold Service.AppName.ofString? at fits
  split at fits
  · obtain rfl := Option.some.inj fits
    rw [known]
    exact there
  · contradiction

/-- Only two names get a service that draws. -/
theorem DemoService.named_of_hasDrawing {app : String} {service : DemoService}
    (given : AppStore.service app = .ok service) (draws : service.hasDrawing = true) : app ∈ ["clock", "weather"] := by
  unfold AppStore.service forApp? at given
  split at given
  · next found =>
    split at found
    · next clock => exact clock ▸ List.mem_cons_self
    · split at found
      · obtain rfl := Option.some.inj found
        obtain rfl := Except.ok.inj given
        contradiction
      · split at found
        · next weather => exact weather ▸ List.mem_cons_of_mem _ List.mem_cons_self
        · split at found
          · obtain rfl := Option.some.inj found
            obtain rfl := Except.ok.inj given
            contradiction
          · contradiction
  · contradiction

namespace Service.Roster

variable {κ σ ω : Type} {registry : Registry κ ω} {rely : (World σ).Rely} {s : ω}

/-- A service that is enlisted gets the slot behind the others, and is drawn last if at all. -/
theorem ensures_enlist_slots (r : Roster σ) (key : TaskKey → κ) (slot : Slot σ) :
    Program.Ensures registry rely
      (fun last _ => (∃ loopTask, last.slots = r.slots ++ [{ slot with loopTask }]) ∧
        (last.drawList = r.drawList ∨ last.drawList = r.drawList ++ [r.slots.length]))
      (r.enlist key slot) s := by
  have any : Program.Ensures registry rely (fun _ _ => True) (registerLoop key r.slots.length slot) s := by
    unfold registerLoop
    split
    · simp only [Program.ensures_bind, Program.ensures_add]
      split <;> trivial
    · trivial
  simp only [enlist, Program.ensures_bind]
  refine any.mono fun loopTask after _ => ?_
  split
  · split
    · exact ⟨⟨loopTask, rfl⟩, .inr rfl⟩
    · exact ⟨⟨loopTask, rfl⟩, .inl rfl⟩
  · exact ⟨⟨loopTask, rfl⟩, .inl rfl⟩

theorem ensures_registerDraw_slots (r : Roster σ) (key : TaskKey → κ) (hostDraws : Bool) :
    Program.Ensures registry rely (fun ran _ => ran.2.slots = r.slots ∧ ran.2.drawList = r.drawList)
      (r.registerDraw key hostDraws) s := by
  unfold registerDraw
  split
  · exact ⟨rfl, rfl⟩
  · simp only [Program.ensures_bind, Program.ensures_add]
    split <;> exact ⟨rfl, rfl⟩

/-- The slots come from apps of distinct names, none of which is still to be looked at, those that draw
from apps of certain names, and the draw list has each slot once at most. -/
structure Stocked (names : List String) (ahead : List Nat) (r : Roster DemoService) : Prop where
  found : ∀ slot ∈ r.slots, ∃ index, index ∉ ahead ∧ names[index]? = some slot.name.text
  distinct : (r.slots.map (·.name.text)).Nodup
  named : ∀ slot ∈ r.slots, slot.service.hasDrawing = true → slot.name.text ∈ ["clock", "weather"]
  once : r.drawList.Nodup
  below : ∀ number ∈ r.drawList, number < r.slots.length

namespace Stocked

variable {names : List String} {ahead : List Nat} {index : Nat} {r last : Roster DemoService}

theorem skipped (stocked : Stocked names (index :: ahead) r) : Stocked names ahead r := by
  refine { stocked with found := fun slot member => ?_ }
  obtain ⟨place, past, name⟩ := stocked.found slot member
  exact ⟨place, fun later => past (List.mem_cons_of_mem index later), name⟩

theorem enlisted (stocked : Stocked names (index :: ahead) r) (apart : names.Nodup) (passed : index ∉ ahead)
    {slot : Slot DemoService} (name : names[index]? = some slot.name.text)
    (draws : slot.service.hasDrawing = true → slot.name.text ∈ ["clock", "weather"])
    (slots : ∃ loopTask, last.slots = r.slots ++ [{ slot with loopTask }])
    (list : last.drawList = r.drawList ∨ last.drawList = r.drawList ++ [r.slots.length]) :
    Stocked names ahead last := by
  have before := stocked.skipped
  obtain ⟨loopTask, slots⟩ := slots
  refine ⟨?_, ?_, ?_, ?_, ?_⟩
  · intro other member
    rw [slots] at member
    rcases List.mem_append.mp member with old | new
    · exact before.found other old
    · rw [List.mem_singleton.mp new]
      exact ⟨index, passed, name⟩
  · rw [slots, List.map_append, List.map_singleton, ← List.concat_eq_append]
    refine List.Nodup.concat (fun taken => ?_) before.distinct
    obtain ⟨old, there, same⟩ := List.mem_map.mp taken
    obtain ⟨place, past, found⟩ := stocked.found old there
    rw [same, ← name] at found
    obtain ⟨bound, -⟩ := List.getElem?_eq_some_iff.mp name
    obtain rfl := (List.getElem?_inj bound apart).mp found.symm
    exact past List.mem_cons_self
  · intro other member
    rw [slots] at member
    rcases List.mem_append.mp member with old | new
    · exact before.named other old
    · rw [List.mem_singleton.mp new]
      exact draws
  · rcases list with same | more
    · rw [same]
      exact before.once
    · rw [more, ← List.concat_eq_append]
      exact List.Nodup.concat (fun member => Nat.lt_irrefl _ (before.below _ member)) before.once
  · intro number member
    rw [slots, List.length_append, List.length_singleton]
    rcases list with same | more
    · rw [same] at member
      exact Nat.lt_succ_of_lt (before.below number member)
    · rw [more] at member
      rcases List.mem_append.mp member with old | new
      · exact Nat.lt_succ_of_lt (before.below number old)
      · rw [List.mem_singleton.mp new]
        exact Nat.lt_succ_self _

theorem drawers_le (stocked : Stocked names ahead r) : Slot.drawers r.slots r.drawList ≤ 2 := by
  have name {number : Nat} (draws : (Slot.drawings r.slots)[number]? = some true) :
      ∃ slot, r.slots[number]? = some slot ∧ slot.name.text ∈ ["clock", "weather"] := by
    simp only [Slot.drawings, List.getElem?_map] at draws
    obtain ⟨slot, there, draws⟩ := Option.map_eq_some_iff.mp draws
    exact ⟨slot, there, stocked.named slot (List.mem_of_getElem? there) draws⟩
  let nameOf (number : Nat) : Option String := r.slots[number]?.map (·.name.text)
  let drawing := r.drawList.filter fun number => (Slot.drawings r.slots)[number]? = some true
  have apart : (drawing.map nameOf).Nodup := by
    refine List.Nodup.map_on ?_ (stocked.once.filter _)
    intro a here b there same
    obtain ⟨slot, found, -⟩ := name (of_decide_eq_true (List.mem_filter.mp here).2)
    obtain ⟨bound, -⟩ := List.getElem?_eq_some_iff.mp found
    refine (List.getElem?_inj (by rwa [List.length_map]) stocked.distinct).mp ?_
    rw [List.getElem?_map, List.getElem?_map]
    exact same
  have known : drawing.map nameOf ⊆ [some "clock", some "weather"] := by
    intro text member
    obtain ⟨number, here, rfl⟩ := List.mem_map.mp member
    obtain ⟨slot, found, known⟩ := name (of_decide_eq_true (List.mem_filter.mp here).2)
    have same : nameOf number = some slot.name.text := by simp only [nameOf, found, Option.map_some]
    rw [same]
    exact List.mem_map_of_mem (f := some) known
  -- The slots that draw have distinct names, of which there are two.
  have bound := (List.subperm_of_subset apart known).length_le
  rw [List.length_map] at bound
  rw [Slot.drawers, List.countP_eq_length_filter]
  exact bound

end Stocked

theorem named_of_offered {store : AppStore} {hostDraws : Bool} {name : AppName} {slot : Slot DemoService}
    (offered : Offered (Devices.shelf store) hostDraws name slot) (draws : slot.service.hasDrawing = true) :
    slot.name.text ∈ ["clock", "weather"] := by
  obtain ⟨named, ⟨first, service, setUp⟩, -, -⟩ := offered
  have same : slot.service = first := setUp
  rw [same] at draws
  rw [named]
  exact DemoService.named_of_hasDrawing service.symm draws

/-- Where the installed apps have distinct names, at most two of the services that start draw. -/
theorem ensures_startInstalled_drawers {store : AppStore} (distinct : AppStore.Distinct store.names)
    {registry : Registry κ ω} (capacity : Nat) (key : TaskKey → κ) (hostDraws : Bool) :
    Program.Ensures registry (Devices.shelf store) (fun ran _ => Slot.drawers ran.2.slots ran.2.drawList ≤ 2)
      ((empty capacity .standard).startInstalled key hostDraws) s := by
  have none (ahead : List Nat) : Stocked (store.names.getD []) ahead (empty capacity .standard : Roster DemoService) :=
    ⟨fun _ member => absurd member List.not_mem_nil, List.nodup_nil, fun _ member => absurd member List.not_mem_nil,
      List.nodup_nil, fun _ member => absurd member List.not_mem_nil⟩
  simp only [startInstalled, Program.ensures_bind, Work.on, Program.ensures_call, Program.ensures_done]
  intro count _
  cases count with
  | error e => exact (none []).drawers_le
  | ok count =>
    simp only [Program.ensures_bind]
    refine (ensures_startAll (motive := fun ahead r _ => ahead.Nodup ∧ Stocked (store.names.getD []) ahead r)
      ?_ ?_ (List.range count) false ⟨List.nodup_range, none _⟩).mono ?_
    · rintro index ahead r s ⟨apart, stocked⟩
      exact ⟨apart.of_cons, stocked.skipped⟩
    · rintro index ahead r s name slot ⟨apart, stocked⟩ found offered -
      obtain ⟨passed, apart⟩ := List.nodup_cons.mp apart
      refine (ensures_enlist_slots r key slot).mono ?_
      rintro last after ⟨slots, list⟩
      have named := named_of_offered offered
      refine ⟨apart, stocked.enlisted distinct passed ?_ named slots list⟩
      rw [offered.named]
      exact AppStore.names_of_name? found.symm
    · rintro r after ⟨-, stocked⟩
      refine (ensures_registerDraw_slots r key hostDraws).mono ?_
      rintro ran after ⟨slots, list⟩
      rw [slots, list]
      exact stocked.drawers_le

end Service.Roster

/-- Where the installed apps have distinct names, at most two slots draw after boot. -/
theorem Emulator.drawers_boot {store : AppStore} (distinct : AppStore.Distinct store.names) (now : Int) (radio : Radio)
    (power : Power.Config) (period : Duration) :
    Service.Slot.drawers (boot store now radio power period).state.roster.slots
      (boot store now radio power period).state.roster.drawList ≤ 2 :=
  Program.ensures_run (Service.Roster.ensures_startInstalled_drawers distinct _ Key.service true)
    (Devices.shelf_kept now store) ⟨.blank, radio⟩

end ConferenceBadge
