import ConferenceBadge.EventLog
import Mathlib.Data.List.Induction
import Mathlib.Data.List.Nodup

/-!
What an event log keeps and what its events tell. Of the events recorded one after the other the newest
stay, numbered in order (`keeps_recordAll`). Events are replayed on the registrations that are live:
what is added comes last, and what is removed has to be there (`Event.Replays`). Where every
registration has a handle of its own, there is only one way to replay them (`ReplaysAll.replay?_eq`),
and no registration is removed twice (`ReplaysAll.nodup_removed`).
-/
namespace ConferenceBadge

variable {κ : Type}

namespace EventLog

/-- The log after events at these uptimes, one after the other. -/
def recordAll (log : EventLog κ) (records : List (Duration × Event κ)) : EventLog κ :=
  records.foldl (fun log r => log.record r.1 r.2) log

theorem recordAll_append (log : EventLog κ) (earlier later : List (Duration × Event κ)) :
    log.recordAll (earlier ++ later) = (log.recordAll earlier).recordAll later := List.foldl_append

/-- A log keeps the newest of these records in order, numbered one after the other up to the last. -/
structure Keeps (log : EventLog κ) (records : List (Duration × Event κ)) : Prop where
  newest : log.kept.map (fun r => (r.uptime, r.event)) = records.drop (records.length - log.capacity)
  size : log.size = min log.capacity records.length
  consecutive : log.kept.IsChain fun r next => next.seq = r.seq + 1
  last : ∀ r, log.newest? = some r → r.seq = log.total - 1
  total : log.total = UInt32.ofNat records.length

theorem Keeps.recorded {log : EventLog κ} {records : List (Duration × Event κ)} (keeps : log.Keeps records)
    {r : LoggedEvent κ} (kept : r ∈ log.kept) : (r.uptime, r.event) ∈ records := by
  have there := List.mem_map_of_mem (f := fun r => (r.uptime, r.event)) kept
  rw [keeps.newest] at there
  exact List.mem_of_mem_drop there

/-- What is kept is in the order of the records. -/
theorem Keeps.pairwise {log : EventLog κ} {records : List (Duration × Event κ)} (keeps : log.Keeps records)
    {ordered : Duration → Duration → Prop} (all : records.Pairwise fun r later => ordered r.1 later.1) :
    log.kept.Pairwise fun r later => ordered r.uptime later.uptime := by
  have newest := all.drop (i := records.length - log.capacity)
  rw [← keeps.newest, List.pairwise_map] at newest
  exact newest

/-- A record with the number that it gets as the one at a place. -/
def numbered (place : Nat) (r : Duration × Event κ) : LoggedEvent κ := ⟨UInt32.ofNat place, r.1, r.2⟩

theorem recordAll_empty (capacity : Nat) (records : List (Duration × Event κ)) :
    (empty capacity).recordAll records =
      ⟨capacity, (records.mapIdx numbered).drop (records.length - capacity), UInt32.ofNat records.length⟩ := by
  induction records using List.reverseRecOn with
  | nil => simp [recordAll, empty]
  | append_singleton earlier r ih =>
    have one : (earlier.mapIdx numbered).drop (earlier.length - capacity) ++ [numbered earlier.length r] =
        ((earlier ++ [r]).mapIdx numbered).drop (earlier.length - capacity) := by
      rw [List.mapIdx_concat, List.drop_append_of_le_length (by simp)]
    have places : earlier.length - capacity + (earlier.length + 1 - (earlier.length - capacity) - capacity) =
        earlier.length + 1 - capacity := by omega
    rw [recordAll_append, ih]
    show record _ r.1 r.2 = _
    simp only [record]
    rw [show LoggedEvent.mk (UInt32.ofNat earlier.length) r.1 r.2 = numbered earlier.length r from rfl, one]
    simp only [List.length_drop, List.length_mapIdx, List.length_append, List.length_singleton, List.drop_drop, places,
      UInt32.ofNat_add]
    rfl

/-- An empty log keeps what is recorded from then on. -/
theorem keeps_recordAll (capacity : Nat) (records : List (Duration × Event κ)) :
    ((empty capacity).recordAll records).Keeps records := by
  rw [recordAll_empty]
  refine ⟨?_, ?_, ?_, ?_, rfl⟩
  · have plain : (records.mapIdx numbered).map (fun r => (r.uptime, r.event)) = records := by
      refine List.ext_getElem? fun i => ?_
      rw [List.getElem?_map, List.getElem?_mapIdx]
      cases records[i]? with
      | none => rfl
      | some r => rfl
    simp only [List.map_drop, plain]
  · simp only [size, List.length_drop, List.length_mapIdx]
    omega
  · refine List.isChain_iff_getElem.mpr fun i next => ?_
    simp only [List.getElem_drop, List.getElem_mapIdx, numbered, ← Nat.add_assoc, UInt32.ofNat_add]
    rfl
  · intro r newest
    simp only [newest?, total, List.getLast?_eq_getElem?, List.getElem?_drop, List.getElem?_mapIdx,
      List.length_drop, List.length_mapIdx, Option.map_eq_some_iff] at newest ⊢
    obtain ⟨plain, there, rfl⟩ := newest
    obtain ⟨bound, -⟩ := List.getElem?_eq_some_iff.mp there
    have place : records.length = records.length - capacity + (records.length - (records.length - capacity) - 1) + 1 := by
      omega
    rw [numbered]
    conv => rhs; rw [place, UInt32.ofNat_add]
    exact (UInt32.add_sub_cancel _ _).symm

end EventLog

namespace Event

/-- The registration that an event tells of. -/
def added? : Event κ → Option (Handle × κ)
  | added handle key => some (handle, key)
  | retargeted .. | completed .. | faulted .. | deleted _ => none

/-- The handle of the registration that an event removes. -/
def removed? : Event κ → Option Handle
  | completed handle _ | faulted handle .. | deleted handle => some handle
  | added .. | retargeted .. => none

theorem added?_of_removed? {e : Event κ} {handle : Handle} (gone : e.removed? = some handle) : e.added? = none := by
  cases e with
  | added | retargeted => contradiction
  | completed | faulted | deleted => rfl

/-- What an event makes of the registrations that are live: a new one comes last, and one that is removed
was there. -/
inductive Replays : Event κ → List (Handle × κ) → List (Handle × κ) → Prop
  | added (handle : Handle) (key : κ) (live : List (Handle × κ)) :
      Replays (.added handle key) live (live ++ [(handle, key)])
  | retargeted (handle : Handle) (target : Duration) (live : List (Handle × κ)) :
      Replays (.retargeted handle target) live live
  | removed {e : Event κ} {handle : Handle} (gone : e.removed? = some handle) (before : List (Handle × κ)) (key : κ)
      (after : List (Handle × κ)) : Replays e (before ++ (handle, key) :: after) (before ++ after)

/-- What events make of the registrations that are live, one after the other. -/
inductive ReplaysAll : List (Event κ) → List (Handle × κ) → List (Handle × κ) → Prop
  | none (live : List (Handle × κ)) : ReplaysAll [] live live
  | more {e : Event κ} {rest : List (Event κ)} {live between last : List (Handle × κ)} (first : e.Replays live between)
      (later : ReplaysAll rest between last) : ReplaysAll (e :: rest) live last

theorem Replays.all {e : Event κ} {live last : List (Handle × κ)} (replays : e.Replays live last) :
    ReplaysAll [e] live last := .more replays (.none last)

theorem ReplaysAll.append {earlier later : List (Event κ)} {live between last : List (Handle × κ)}
    (first : ReplaysAll earlier live between) (rest : ReplaysAll later between last) :
    ReplaysAll (earlier ++ later) live last := by
  induction first with
  | none live => exact rest
  | more first later ih => exact .more first (ih rest)

/-- The registrations that are live after an event; nothing where it removes one that is not. -/
def replayed (live : List (Handle × κ)) : Event κ → Option (List (Handle × κ))
  | added handle key => some (live ++ [(handle, key)])
  | retargeted .. => some live
  | completed handle _ | faulted handle .. | deleted handle =>
    if handle ∈ live.map (·.1) then some (live.eraseP fun one => one.1 = handle) else none

/-- The registrations that are live after events, if none of them removes one that is not. -/
def replay? (events : List (Event κ)) (live : List (Handle × κ)) : Option (List (Handle × κ)) :=
  events.foldlM replayed live

/-- What was live and what was added is what is live and what was removed. -/
theorem ReplaysAll.perm {events : List (Event κ)} {live last : List (Handle × κ)} (replays : ReplaysAll events live last) :
    (live.map (·.1) ++ (events.filterMap added?).map (·.1)).Perm
      (events.filterMap removed? ++ last.map (·.1)) := by
  induction replays with
  | none live => simp
  | @more e rest live between last first later ih =>
    cases first with
    | added handle key live =>
      simp only [List.map_append, List.map_cons, List.map_nil, List.append_assoc] at ih
      simpa [List.filterMap_cons, added?, removed?] using ih
    | retargeted handle target live => simpa [List.filterMap_cons, added?, removed?] using ih
    | @removed _ handle gone before key after =>
      have silent : e.added? = Option.none := added?_of_removed? gone
      rw [List.filterMap_cons_none silent, List.filterMap_cons_some gone, List.map_append, List.map_cons]
      rw [List.map_append] at ih
      rw [List.append_assoc, List.cons_append]
      refine List.perm_middle.trans ?_
      rw [← List.append_assoc]
      exact ih.cons _

/-- Where every registration has a handle of its own, none is removed twice. -/
theorem ReplaysAll.nodup_removed {events : List (Event κ)} {last : List (Handle × κ)} (replays : ReplaysAll events [] last)
    (alone : ((events.filterMap added?).map (·.1)).Nodup) : (events.filterMap removed?).Nodup :=
  List.Nodup.of_append_left (replays.perm.nodup alone)

theorem replayed_of_replays {e : Event κ} {live last : List (Handle × κ)} (replays : e.Replays live last)
    (alone : (live.map (·.1)).Nodup) : e.replayed live = some last := by
  cases replays with
  | added handle key live => rfl
  | retargeted handle target live => rfl
  | @removed e handle gone before key after =>
    have there : handle ∈ (before ++ (handle, key) :: after).map (·.1) := by simp
    have taken : (before ++ (handle, key) :: after).eraseP (fun one => one.1 = handle) = before ++ after := by
      rw [List.map_append, List.map_cons, List.nodup_middle] at alone
      obtain ⟨absent, -⟩ := List.nodup_cons.mp alone
      rw [List.eraseP_append_right, List.eraseP_cons_of_pos (by simp)]
      rintro one member same
      rw [decide_eq_true_iff] at same
      exact absent (List.mem_append_left _ (List.mem_map.mpr ⟨one, member, same⟩))
    cases e with
    | added | retargeted => contradiction
    | completed named _ | faulted named _ _ | deleted named =>
      obtain rfl := Option.some.inj gone
      simp only [replayed, there, ↓reduceIte, taken]

/-- Where every registration has a handle of its own, there is one way to replay events. -/
theorem ReplaysAll.replay?_eq {events : List (Event κ)} {live last : List (Handle × κ)}
    (replays : ReplaysAll events live last)
    (alone : (live.map (·.1) ++ (events.filterMap added?).map (·.1)).Nodup) : replay? events live = some last := by
  induction replays with
  | none live => rfl
  | @more e rest live between last first later ih =>
    rw [replay?, List.foldlM_cons, replayed_of_replays first (List.Nodup.of_append_left alone)]
    refine ih ?_
    -- Of the registrations so far, a removal leaves some, and an addition comes behind them.
    cases first with
    | added handle key live => simpa [List.filterMap_cons, added?] using alone
    | retargeted handle target live => simpa [List.filterMap_cons, added?] using alone
    | @removed _ handle gone before key after =>
      have silent : e.added? = Option.none := added?_of_removed? gone
      rw [List.filterMap_cons_none silent] at alone
      have fewer : (before ++ after).Sublist (before ++ (handle, key) :: after) :=
        (List.Sublist.refl before).append (List.sublist_cons_self _ after)
      exact ((fewer.map _).append (List.Sublist.refl _)).nodup alone

end Event
end ConferenceBadge
