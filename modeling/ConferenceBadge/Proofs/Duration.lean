import ConferenceBadge.Duration

/-!
Arithmetic of durations. Sums stop at the longest duration, so they may be regrouped and taken in parts
(`total_append`); the shorter and the longer of two durations are so in nanoseconds.
-/
namespace ConferenceBadge.Duration

theorem add_zero (d : Duration) : d + zero = d := by
  apply ext
  have bound := d.nanos_le
  simp [Nat.min_eq_left bound]

theorem zero_add (d : Duration) : zero + d = d := by
  apply ext
  have bound := d.nanos_le
  simp [Nat.min_eq_left bound]

theorem add_comm (a b : Duration) : a + b = b + a := by
  apply ext
  rw [nanos_add, nanos_add, Nat.add_comm]

theorem add_assoc (a b c : Duration) : a + b + c = a + (b + c) := by
  apply ext
  simp only [nanos_add]
  omega

/-- The sum of durations, or the longest duration where the sum exceeds it. -/
def total (ds : List Duration) : Duration := ds.foldr (· + ·) zero

@[simp] theorem total_nil : total [] = zero := rfl

@[simp] theorem total_cons (d : Duration) (ds : List Duration) : total (d :: ds) = d + total ds := rfl

theorem total_singleton (d : Duration) : total [d] = d := add_zero d

/-- A sum may be taken in parts, for a sum that has stopped stays where it is. -/
theorem total_append (earlier later : List Duration) :
    total (earlier ++ later) = total earlier + total later := by
  induction earlier with
  | nil => rw [List.nil_append, total_nil, zero_add]
  | cons d ds ih => rw [List.cons_append, total_cons, total_cons, ih, add_assoc]

theorem le_add_right (a b : Duration) : a ≤ a + b := by
  have bound := a.nanos_le
  simp only [le_iff, nanos_add]
  omega

theorem add_le_add_right {a b : Duration} (less : a ≤ b) (c : Duration) : a + c ≤ b + c := by
  simp only [le_iff, nanos_add] at less ⊢
  omega

/-- A sum of less is no more. -/
theorem total_map_le {f : Duration → Duration} (shorter : ∀ d, f d ≤ d) (ds : List Duration) :
    total (ds.map f) ≤ total ds := by
  induction ds with
  | nil => exact Nat.le_refl _
  | cons d ds ih =>
    have first := shorter d
    simp only [List.map_cons, total_cons, le_iff, nanos_add] at first ih ⊢
    omega

theorem lt_of_lt_of_le {a b c : Duration} (less : a < b) (most : b ≤ c) : a < c := Nat.lt_of_lt_of_le less most

theorem not_lt {a b : Duration} : ¬ a < b ↔ b ≤ a := Nat.not_lt

theorem le_longest (d : Duration) : d ≤ longest := d.nanos_le

@[simp] theorem nanos_min (a b : Duration) : (min a b).nanos = min a.nanos b.nanos := by
  show (if a.nanos ≤ b.nanos then a else b).nanos = _
  rw [Nat.min_def]
  split <;> rfl

@[simp] theorem nanos_max (a b : Duration) : (max a b).nanos = max a.nanos b.nanos := by
  show (if a.nanos ≤ b.nanos then b else a).nanos = _
  rw [Nat.max_def]
  split <;> rfl

theorem min_le_left (a b : Duration) : min a b ≤ a := by
  rw [le_iff, nanos_min]
  exact Nat.min_le_left _ _

theorem min_le_right (a b : Duration) : min a b ≤ b := by
  rw [le_iff, nanos_min]
  exact Nat.min_le_right _ _

theorem min_eq (a b : Duration) : min a b = a ∨ min a b = b := by
  rcases Nat.le_total a.nanos b.nanos with less | more
  · exact .inl (ext (by rw [nanos_min]; omega))
  · exact .inr (ext (by rw [nanos_min]; omega))

theorem max_ne_zero {a b : Duration} (positive : a ≠ zero ∨ b ≠ zero) : max a b ≠ zero := by
  intro none
  have sum := congrArg nanos none
  rw [nanos_max, nanos_zero] at sum
  rcases positive with first | second
  · exact first (ext (by rw [nanos_zero]; omega))
  · exact second (ext (by rw [nanos_zero]; omega))

end ConferenceBadge.Duration
