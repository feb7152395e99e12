import ConferenceBadge.Scheduler.Basic
import Mathlib.Data.List.Nodup
import Mathlib.Data.List.Perm.Subperm

/-!
Tasks and their owners. Every task has a key, and whoever registered a task under a key keeps its
handle. Owners and registry agree where no two tasks share a key, every task is the one that its owner
keeps, and no owner keeps a handle for nothing (`OwnersAgree`).
-/
namespace ConferenceBadge

variable {κ : Type}

/-- What a task is known by: neither its position nor its target. -/
def Task.identity (t : Task κ) : κ × Handle × Visibility := (t.key, t.handle, t.visibility)

@[simp] theorem Task.identity_aged (t : Task κ) (period : Duration) : (t.aged period).identity = t.identity := rfl

@[simp] theorem Task.identity_restarted (t : Task κ) (target : Duration) :
    (t.restarted target).identity = t.identity := rfl

theorem Task.handle_of_identity {t u : Task κ} (same : t.identity = u.identity) : t.handle = u.handle :=
  congrArg (fun known => known.2.1) same

theorem Scheduler.identity_restartFirst (handle : Handle) (target : Duration) (tasks : List (Task κ)) :
    (restartFirst handle target tasks).map (·.identity) = tasks.map (·.identity) := by
  induction tasks with
  | nil => rfl
  | cons t rest ih =>
    rw [restartFirst]
    split
    · rfl
    · simp only [List.map_cons, ih]

/-- Where there is a place left, a task is registered behind the others. -/
theorem Scheduler.add_vacant {τ : Type} [ToString κ] {s : Scheduler κ τ} (vacant : s.tasks.length < s.capacity)
    (key : κ) (target : Duration) (visibility : Visibility) :
    (s.add key target visibility).answer = .ok s.nextHandle ∧
      (s.add key target visibility).state.tasks = s.tasks ++ [.fresh s.nextHandle key target visibility] ∧
      (s.add key target visibility).state.capacity = s.capacity := by
  simp only [add, vacant, ↓reduceIte]
  exact ⟨trivial, rfl, rfl⟩

/-- The tasks are those that their owners keep; `visibility` is what the kind of task asks for. -/
structure OwnersAgree (tasks : List (Task κ)) (visibility : κ → Visibility) (owner : κ → Option Handle) : Prop where
  distinct : (tasks.map (·.key)).Nodup
  registered : ∀ t ∈ tasks, owner t.key = some t.handle ∧ t.visibility = visibility t.key
  kept : ∀ key handle, owner key = some handle → ∃ t ∈ tasks, t.key = key

namespace OwnersAgree

variable {tasks others : List (Task κ)} {visibility : κ → Visibility} {owner last : κ → Option Handle}

/-- What tasks wait for does not matter. -/
theorem of_identity (agree : OwnersAgree tasks visibility owner)
    (same : others.map (·.identity) = tasks.map (·.identity)) : OwnersAgree others visibility owner := by
  have found {t : Task κ} {some : List (Task κ)} (member : t ∈ some) : t.identity ∈ some.map (·.identity) :=
    List.mem_map_of_mem member
  have keys (some : List (Task κ)) : some.map (·.key) = (some.map (·.identity)).map (·.1) := by
    simp [Task.identity, Function.comp_def]
  refine ⟨?_, ?_, ?_⟩
  · rw [keys, same, ← keys]
    exact agree.distinct
  · intro t member
    obtain ⟨u, there, equal⟩ := List.mem_map.mp (same ▸ found member)
    simp only [Task.identity, Prod.mk.injEq] at equal
    obtain ⟨key, handle, sight⟩ := equal
    rw [← key, ← handle, ← sight]
    exact agree.registered u there
  · intro key handle known
    obtain ⟨t, member, rfl⟩ := agree.kept key handle known
    obtain ⟨u, there, equal⟩ := List.mem_map.mp (same.symm ▸ found member)
    exact ⟨u, there, congrArg Prod.fst equal⟩

theorem nil (nobody : ∀ key, owner key = none) : OwnersAgree [] visibility owner := by
  refine ⟨List.nodup_nil, fun t member => absurd member List.not_mem_nil, ?_⟩
  intro key handle known
  rw [nobody key] at known
  contradiction

theorem not_mem (agree : OwnersAgree tasks visibility owner) {key : κ} (free : owner key = none) :
    key ∉ tasks.map (·.key) := by
  intro member
  obtain ⟨t, there, rfl⟩ := List.mem_map.mp member
  rw [(agree.registered t there).1] at free
  contradiction

/-- An owner registers a task and keeps its handle. -/
theorem add (agree : OwnersAgree tasks visibility owner) {key : κ} {handle : Handle} (free : owner key = none)
    (keeps : last key = some handle) (same : ∀ k, k ≠ key → last k = owner k) (target : Duration) :
    OwnersAgree (tasks ++ [.fresh handle key target (visibility key)]) visibility last := by
  have absent := agree.not_mem free
  refine ⟨?_, ?_, ?_⟩
  · rw [List.map_append, List.map_singleton, ← List.concat_eq_append]
    exact List.Nodup.concat absent agree.distinct
  · intro t member
    rcases List.mem_append.mp member with old | new
    · have other : t.key ≠ key := fun equal => absent (List.mem_map.mpr ⟨t, old, equal⟩)
      rw [same t.key other]
      exact agree.registered t old
    · rw [List.mem_singleton.mp new]
      exact ⟨keeps, rfl⟩
  · intro k h known
    by_cases equal : k = key
    · exact ⟨_, List.mem_append_right _ List.mem_cons_self, equal.symm⟩
    · rw [same k equal] at known
      obtain ⟨t, member, there⟩ := agree.kept k h known
      exact ⟨t, List.mem_append_left _ member, there⟩

/-- A task goes and its owner keeps its handle no longer. -/
theorem remove {earlier later : List (Task κ)} {t : Task κ} (agree : OwnersAgree (earlier ++ t :: later) visibility owner)
    (gone : last t.key = none) (same : ∀ k, k ≠ t.key → last k = owner k) :
    OwnersAgree (earlier ++ later) visibility last := by
  have fewer : (earlier ++ later).Sublist (earlier ++ t :: later) :=
    (List.Sublist.refl earlier).append (List.sublist_cons_self t later)
  have alone : ∀ u ∈ earlier ++ later, u.key ≠ t.key := by
    have distinct := agree.distinct
    rw [List.map_append, List.map_cons, List.nodup_middle, ← List.map_append] at distinct
    intro u member equal
    exact (List.nodup_cons.mp distinct).1 (List.mem_map.mpr ⟨u, member, equal⟩)
  refine ⟨(fewer.map _).nodup agree.distinct, ?_, ?_⟩
  · intro u member
    rw [same u.key (alone u member)]
    exact agree.registered u (fewer.subset member)
  · intro k h known
    have other : k ≠ t.key := by
      rintro rfl
      rw [gone] at known
      contradiction
    rw [same k other] at known
    obtain ⟨u, member, rfl⟩ := agree.kept k h known
    rcases List.mem_append.mp member with before | after
    · exact ⟨u, List.mem_append_left _ before, rfl⟩
    · rcases List.mem_cons.mp after with rfl | behind
      · contradiction
      · exact ⟨u, List.mem_append_right _ behind, rfl⟩

/-- There are no more tasks than keys that somebody owns. -/
theorem length_le (agree : OwnersAgree tasks visibility owner) (keys : List κ)
    (all : ∀ key handle, owner key = some handle → key ∈ keys) : tasks.length ≤ keys.length := by
  have subset : tasks.map (·.key) ⊆ keys := by
    intro key member
    obtain ⟨t, there, rfl⟩ := List.mem_map.mp member
    exact all t.key t.handle (agree.registered t there).1
  have bound := (List.subperm_of_subset agree.distinct subset).length_le
  rwa [List.length_map] at bound

end OwnersAgree
end ConferenceBadge
