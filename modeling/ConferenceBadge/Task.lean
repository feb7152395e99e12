import ConferenceBadge.Duration

/-!
Tasks: what is registered to run, when it is due and what a run leads to. A task accumulates the
periods of the ticks in its `position`; it is due once that exceeds its `target`.
-/
namespace ConferenceBadge

/-- The name of one registration. -/
structure Handle where
  id : UInt32
deriving DecidableEq

namespace Handle

def first : Handle := ⟨1⟩

/-- The handle given out after `h`: numbers start over at one, and zero is never given out. -/
def next (h : Handle) : Handle := ⟨if h.id + 1 = 0 then 1 else h.id + 1⟩

instance : ToString Handle := ⟨fun h => "#" ++ toString h.id.toNat⟩

theorem next_id_ne_zero (h : Handle) : h.next.id ≠ 0 := by
  simp only [next]
  split
  · decide
  · assumption

end Handle

/-- Whether a task counts when the time until the next one is asked for. -/
inductive Visibility where
  | visible | hidden
deriving DecidableEq

/-- What becomes of a task that ran without a fault. -/
inductive Outcome where
  | again (delay : Duration)
  | remove
deriving DecidableEq

namespace Outcome

/-- Again after so many milliseconds; zero removes the task. -/
def ofMillis (n : Nat) : Outcome := if n = 0 then remove else again (.ofMillis n)

/-- The next target, if the task stays: a delay of zero removes it. -/
def delay? : Outcome → Option Duration
  | again delay => if delay = .zero then none else some delay
  | remove => none

/-- A task stays exactly where it asks to run again after more than no time. -/
theorem delay?_eq_some_iff {o : Outcome} {d : Duration} :
    o.delay? = some d ↔ o = again d ∧ d ≠ .zero := by
  cases o with
  | remove => simp [delay?]
  | again delay =>
    simp only [delay?, again.injEq]
    split
    · next none =>
      simp only [reduceCtorEq, false_iff, not_and, Decidable.not_not]
      exact fun same => same ▸ none
    · next some =>
      simp only [Option.some.injEq, iff_self_and]
      exact fun same => same ▸ some

end Outcome

/-- A failure reported in place of an outcome; the task is removed. -/
structure Fault where
  reason : String
deriving DecidableEq

/-- The time until the next visible task is due. -/
inductive IdleTime where
  | lasting (d : Duration)
  | forever
deriving DecidableEq

namespace IdleTime

/-- Whether the idle time is longer than a ceiling. -/
def longerThan : IdleTime → Duration → Bool
  | lasting d, ceiling => decide (ceiling < d)
  | forever, _ => true

/-- The length of a limited idle time. -/
def duration? : IdleTime → Option Duration
  | lasting d => some d
  | forever => none

/-- The shorter of an idle time and what is left of one more task. -/
def shortened : IdleTime → Duration → IdleTime
  | lasting d, left => lasting (min d left)
  | forever, left => lasting left

instance : ToString IdleTime where
  toString
    | lasting d => d.text
    | forever => "forever"

end IdleTime

/-- One registered task. The key selects what runs. -/
structure Task (κ : Type) where
  handle : Handle
  key : κ
  position : Duration
  target : Duration
  visibility : Visibility
deriving DecidableEq

namespace Task

variable {κ : Type}

/-- A task that has not waited yet. -/
def fresh (handle : Handle) (key : κ) (target : Duration) (visibility : Visibility) : Task κ :=
  { handle, key, position := .zero, target, visibility }

/-- Whether a task has waited longer than its target. -/
def isDue (t : Task κ) : Bool := decide (t.target < t.position)

/-- What is left until the task is due. -/
def left (t : Task κ) : Duration := t.target - t.position

def aged (t : Task κ) (period : Duration) : Task κ := { t with position := t.position + period }

/-- The task with a new target, its waiting started over. -/
def restarted (t : Task κ) (target : Duration) : Task κ := { t with position := .zero, target }

theorem isDue_iff {t : Task κ} : t.isDue ↔ t.target < t.position := decide_eq_true_iff

/-- A task that starts to wait is not due. -/
theorem isDue_restarted (t : Task κ) (target : Duration) : (t.restarted target).isDue = false :=
  decide_eq_false (Nat.not_lt_zero _)

/-- The least time left of the visible tasks. -/
def idleTime (tasks : List (Task κ)) : IdleTime :=
  (tasks.filter fun t => t.visibility = .visible).foldl (fun idle t => idle.shortened t.left) .forever

end Task
end ConferenceBadge
